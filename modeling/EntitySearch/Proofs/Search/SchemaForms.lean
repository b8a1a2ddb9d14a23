import EntitySearch.Engine
import EntitySearch.Proofs.Search.Query
import EntitySearch.Proofs.Search.Reads

/-!
# The forms of a schema

The grammar of a schema has the three operators and one form for each entity, and no kind is called like
an operator (`Engine.kind_ne_operator`). What the form of an entity admits and reads is said here in
terms of the entity's searchable fields, the tag being none of them.
-/

namespace EntitySearch

namespace Form
variable {e : Entity} {name : String} {value : Json} {members : List (String × Json)}

theorem field?_ofEntity (name : String) (h : e.WellFormed) : (ofEntity e).field? name =
    (e.searchableField? name).map fun f => ⟨f.name, .scalar f.type, false⟩ := by
  refine Option.ext fun field => ?_
  have hnd : ((ofEntity e).fields.map FormField.name).Nodup := by
    simpa [ofEntity, fields, Function.comp_def] using h.nodup_searchable
  rw [field?, find?_key_eq_some_iff FormField.name hnd, Option.map_eq_some_iff]
  simp only [ofEntity, fields, List.map_map, List.mem_map, Function.comp_apply,
    h.searchableField?_eq_some_iff]
  constructor
  · rintro ⟨⟨f, hf, rfl⟩, hn⟩
    exact ⟨f, ⟨hf, hn⟩, rfl⟩
  · rintro ⟨f, ⟨hf, hn⟩, rfl⟩
    exact ⟨⟨f, hf, rfl⟩, hn⟩

theorem scalar?_ofEntity (h : e.WellFormed) : (ofEntity e).scalar? name value =
    (e.searchableField? name).bind fun f => Scalar.ofJson? f.type value := by
  rw [scalar?, field?_ofEntity name h]
  cases hf : e.searchableField? name with
  | none => simp
  | some f => simp [h.ne_tagKey (Entity.field?_of_searchableField? hf)]

theorem get?_query_ofEntity_eq_some_iff (h : e.WellFormed) (hnd : (members.map Prod.fst).Nodup)
    {v : Scalar} : ((ofEntity e).query members).get? name = some v ↔
      v ≠ .null ∧ ∃ value f, (name, value) ∈ members ∧ e.searchableField? name = some f ∧
        Scalar.ofJson? f.type value = some v := by
  rw [get?_query_eq_some_iff hnd]
  simp only [scalar?_ofEntity h, Option.bind_eq_some_iff, exists_and_left]

theorem admits_ofEntity_iff (h : e.WellFormed) : (ofEntity e).Admits members ↔
    tag? members = some e.name ∧ ∀ m ∈ members, m.1 ≠ tagKey →
      ∃ f, e.searchableField? m.1 = some f ∧ (Scalar.ofJson? f.type m.2).isSome := by
  have hfield (m : String × Json) :
      (∃ field, (ofEntity e).field? m.1 = some field ∧ (m.2.isNull ∨ field.shape.admits m.2)) ↔
        ∃ f, e.searchableField? m.1 = some f ∧ (Scalar.ofJson? f.type m.2).isSome := by
    rw [field?_ofEntity m.1 h]
    cases e.searchableField? m.1 with
    | none => simp
    | some f => cases m.2 <;> simp [Shape.admits, Json.isNull, Scalar.ofJson?]
  constructor
  · intro ha
    exact ⟨ha.tag, fun m hm hne => (hfield m).1 (ha.known m hm hne)⟩
  · rintro ⟨ht, hk⟩
    refine ⟨ht, fun m hm hne => (hfield m).2 (hk m hm hne), fun field hf hreq => ?_⟩
    obtain ⟨⟨n, t⟩, -, rfl⟩ := List.mem_map.1 hf
    cases hreq

end Form

theorem Grammar.ofForms_forms (g : Grammar) : ofForms g.forms = .ok g := by
  unfold ofForms
  split
  · rfl
  · next h =>
    rw [firstRepeat?_eq_none_iff.2 ⟨g.nodup_tags, by simp⟩] at h
    cases h

namespace Engine
variable {g : Engine} {e : Entity} {form : Form}

/-- The engine of a schema where no kind is called like an operator. -/
def ofNodup (schema : Schema) (maxDepth : Option Nat)
    (nodup : (([Form.not, .or, .and] ++ schema.entities.map Form.ofEntity).map Form.tag).Nodup) : Engine where
  schema := schema
  grammar := ⟨_, nodup⟩
  ofSchema_eq := Grammar.ofForms_forms ⟨_, nodup⟩
  maxDepth := maxDepth

def usersAndCompanies (maxDepth : Option Nat) : Engine :=
  ofNodup .usersAndCompanies maxDepth (by decide)

/-- An engine for books, which have a field of each type. -/
def books (maxDepth : Option Nat) : Engine :=
  ofNodup
    { entities := [⟨"Book", [
        ⟨"isbn", .varchar, true⟩,
        ⟨"pages", .int64, true⟩,
        ⟨"price", .float64, true⟩,
        ⟨"in_print", .boolean, true⟩,
        ⟨"secret", .varchar, false⟩]⟩]
      faultless := by decide }
    maxDepth (by decide)

theorem forms_eq (g : Engine) :
    g.grammar.forms = [.not, .or, .and] ++ g.schema.entities.map Form.ofEntity := by
  have h := g.ofSchema_eq
  unfold Grammar.ofSchema Grammar.ofForms at h
  split at h
  · rw [← Except.ok.inj h]
  · cases h

theorem mem_forms_iff : form ∈ g.grammar.forms ↔
    form = .not ∨ form = .or ∨ form = .and ∨ ∃ e ∈ g.schema.entities, form = .ofEntity e := by
  simp [g.forms_eq, eq_comm]

theorem kind_ne_operator (he : e ∈ g.schema.entities) :
    e.name ≠ "Not" ∧ e.name ≠ "Or" ∧ e.name ≠ "And" := by
  have hnd := g.grammar.nodup_tags
  simp only [g.forms_eq, List.map_append, List.nodup_append] at hnd
  have hne (tag) (ht : tag ∈ ["Not", "Or", "And"]) : e.name ≠ tag := fun h =>
    hnd.2.2 tag ht e.name (by simpa using ⟨e, he, rfl⟩) h.symm
  exact ⟨hne _ (by simp), hne _ (by simp), hne _ (by simp)⟩

theorem entity_of_mem_forms {kind : String} {fields : List (String × ScalarType)}
    (h : .entity kind fields ∈ g.grammar.forms) :
    ∃ e, g.schema.entity? kind = some e ∧ .entity kind fields = Form.ofEntity e := by
  rcases mem_forms_iff.1 h with h | h | h | ⟨e, he, h⟩
  · cases h
  · cases h
  · cases h
  · have hk : e.name = kind := by cases h; rfl
    exact ⟨e, Schema.entity?_eq_some_iff.2 ⟨he, hk⟩, h⟩

theorem ofEntity_mem_forms {kind : String} (h : g.schema.entity? kind = some e) :
    Form.ofEntity e ∈ g.grammar.forms :=
  mem_forms_iff.2 (.inr (.inr (.inr ⟨e, (Schema.entity?_eq_some_iff.1 h).1, rfl⟩)))

end Engine

end EntitySearch
