import EntitySearch.Proofs.Json.Written
import EntitySearch.Proofs.Schema.Construction

/-!
# Schemas read back

Fields, entities and lists of them are taken as they are written, whatever characters their names are made of
(`Field.takes_reader`, `Entity.takes_reader`). A list of entities is then checked as if it had not been written in
between, so the text of a schema gives the schema (`Schema.parse_written`), and the text of any other list is
refused for the fault of the list (`Schema.parse_written_eq`).
-/

namespace EntitySearch

open Reader (Takes TakesMembers)

theorem ScalarType.ofName?_name (type : ScalarType) : ofName? type.name = some type := by
  cases type <;> rfl

theorem ScalarType.takes_reader (type : ScalarType) :
    reader.Takes (Json.string type.name).compactChars type := by
  have hname : nameReader.Takes (type.name.toList.flatMap Json.escape ++ ['"']) type := by
    refine (Reader.takes_stringBody type.name).bind_pure ?_
    rw [ofName?_name]
  exact Takes.after_blanks rfl (Takes.after_next _ hname)

theorem Field.takes_reader (f : Field) : reader.Takes f.toJson.compactChars f := by
  have hname : (Draft.member {} "name").Takes (':' :: (Json.string f.name).compactChars) { name := some f.name } :=
    (Reader.takes_member (Reader.takes_string f.name)).map _
  have htype : (Draft.member { name := some f.name } "type").Takes
      (':' :: (Json.string f.type.name).compactChars) { name := some f.name, type := some f.type } :=
    (Reader.takes_member (ScalarType.takes_reader f.type)).map _
  have hsearchable : (Draft.member { name := some f.name, type := some f.type } "searchable").Takes
      (':' :: (Json.bool f.searchable).compactChars) ⟨some f.name, some f.type, some f.searchable⟩ :=
    (Reader.takes_member (Reader.takes_bool f.searchable)).map _
  exact TakesMembers.record (.cons hname (.cons htype (.cons hsearchable .nil))) rfl

theorem Entity.takes_reader (e : Entity) : reader.Takes e.toJson.compactChars e := by
  have hlist : (Reader.list Field.reader).Takes (Json.array (e.fields.map Field.toJson)).compactChars e.fields :=
    Reader.takes_list (fun f _ => f.takes_reader) fun _ _ => Reader.opens_object _
  have hname : (Draft.member {} "name").Takes (':' :: (Json.string e.name).compactChars) { name := some e.name } :=
    (Reader.takes_member (Reader.takes_string e.name)).map _
  have hfields : (Draft.member { name := some e.name } "fields").Takes
      (':' :: (Json.array (e.fields.map Field.toJson)).compactChars) ⟨some e.name, some e.fields⟩ :=
    (Reader.takes_member hlist).map _
  exact TakesMembers.record (.cons hname (.cons hfields .nil)) rfl

namespace Schema

/-- The text of a list of entities, whether or not they make a schema. -/
def written (entities : List Entity) : String :=
  "\x7b\"entities\":[" ++ ",".intercalate (entities.map fun e => e.toJson.compact) ++ "]\x7d"

theorem compact_entities (entities : List Entity) :
    (Json.object [("entities", .array (entities.map Entity.toJson))]).compact = written entities := by
  have hitems : (",".intercalate (entities.map fun e => e.toJson.compact)).toList =
      Json.compactItems (entities.map Entity.toJson) := by
    rw [String.toList_intercalate, Json.compactItems_eq_intercalate, List.map_map, List.map_map]
    simp [Json.compact, Function.comp_def]
  have hname : Json.quote "entities" = "\"entities\"".toList := by decide
  rw [← String.toList_inj]
  calc
    _ = (Json.object [("entities", .array (entities.map Entity.toJson))]).compactChars := String.toList_ofList
    _ = "\x7b\"entities\":[".toList ++ Json.compactItems (entities.map Entity.toJson) ++ "]\x7d".toList := by
      rw [Json.compactChars, Json.compactMembers, Json.compactChars, hname]
      simp
    _ = _ := by rw [written, String.toList_append, String.toList_append, hitems]

theorem takes_entities (entities : List Entity) : entitiesReader.Takes
    (Json.object [("entities", .array (entities.map Entity.toJson))]).compactChars entities := by
  have hlist : (Reader.list Entity.reader).Takes (Json.array (entities.map Entity.toJson)).compactChars entities :=
    Reader.takes_list (fun e _ => e.takes_reader) fun _ _ => Reader.opens_object _
  have hentities : (member none "entities").Takes
      (':' :: (Json.array (entities.map Entity.toJson)).compactChars) (some entities) :=
    (Reader.takes_member hlist).map some
  exact TakesMembers.record (.cons hentities .nil) rfl

theorem parse_written_eq (entities : List Entity) :
    parse (written entities) = (ofEntities entities).mapError .refused := by
  rw [parse, ← compact_entities, Json.compact, (takes_entities entities).readAll]
  cases h : ofEntities entities with
  | error fault => simp only [h]; rfl
  | ok s => simp only [h]; rfl

/-- A schema is written as the texts of its entities in their order, and is read back from them, whatever
characters the names are made of. -/
theorem parse_written {entities : List Entity} {s : Schema} (h : ofEntities entities = .ok s) :
    s.toJson.compact = written entities ∧ parse (written entities) = .ok s := by
  constructor
  · rw [toJson, ofEntities_eq_ok_iff.1 h, compact_entities]
  · rw [parse_written_eq, h]
    rfl

/-- Names with escapes of every kind, a hidden field, and an entity without fields. -/
def signs : Schema where
  entities := [
    ⟨"say \"hi\\\"", [⟨"\n\t\x01\x1f", .float64, false⟩, ⟨"", .boolean, true⟩, ⟨"name/é😀", .varchar, true⟩]⟩,
    ⟨"\x7b[,:]\x7d", []⟩]
  faultless := by decide

theorem parse_written_signs : ofEntities signs.entities = .ok signs ∧
    signs.toJson.compact = written signs.entities ∧ parse (written signs.entities) = .ok signs := by
  have h : ofEntities signs.entities = .ok signs := ofEntities_eq_ok_iff.2 rfl
  exact ⟨h, parse_written h⟩

end Schema

end EntitySearch
