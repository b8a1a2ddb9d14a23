import EntitySearch.Proofs.Json.DistinctKeys
import EntitySearch.Proofs.Predicate.Kleene
import EntitySearch.Proofs.Record.Typed

/-!
# What payloads mean

`Payload.truth` says what a payload is of a record without any search or predicate: operators are those
of the strong logic of three values, and an entity node is the conjunction of its members, each comparing
a column with a value. The predicate of the search that a payload stands for has the same truth
(`Grammar.Reads.kleene_eq_truth`), although it has the members in the order of the schema.
-/

namespace EntitySearch

/-- The value of a member at the type that the entity declares. -/
def Schema.read? (s : Schema) (kind name : String) (value : Json) : Option Scalar :=
  (s.entity? kind).bind fun e => (e.field? name).bind fun f => Scalar.ofJson? f.type value

namespace Payload

/-- Whether the column that a member of an entity node names equals the member, unknown if the record has
no such column. -/
def memberTruth (s : Schema) (kind : String) (r : Record) (name : String) (value : Json) : Truth :=
  match r.columns.get? name, s.read? kind name value with
  | some column, some v => .ofBool (column.same v)
  | _, _ => .unknown

/-- The members of an entity node that say something of a record. -/
def wishes (members : List (String × Json)) : List (String × Json) :=
  members.filter fun (name, value) => name ≠ tagKey && !value.isNull

mutual

def truth (s : Schema) (r : Record) (payload : Json) : Truth :=
  match payload with
  | .object members => match Form.tag? members with
    | some "Not" => (truth s r (Form.child members)).neg
    | some "And" => .all (truths s r (Form.children members))
    | some "Or" => .any (truths s r (Form.children members))
    | some kind => .all ((wishes members).map fun (name, value) => memberTruth s kind r name value)
    | none => .unknown
  | _ => .unknown
termination_by sizeOf payload
decreasing_by
  · exact Form.sizeOf_child_lt members
  · exact Form.sizeOf_children_lt members
  · exact Form.sizeOf_children_lt members

def truths (s : Schema) (r : Record) (payloads : List Json) : List Truth :=
  match payloads with
  | [] => []
  | payload :: rest => truth s r payload :: truths s r rest
termination_by sizeOf payloads

end

mutual

/-- The kinds of the entity nodes from left to right. -/
def kinds (payload : Json) : List String :=
  match payload with
  | .object members => match Form.tag? members with
    | some "Not" => kinds (Form.child members)
    | some "And" | some "Or" => kindsOfList (Form.children members)
    | some kind => [kind]
    | none => []
  | _ => []
termination_by sizeOf payload
decreasing_by
  · exact Form.sizeOf_child_lt members
  · exact Form.sizeOf_children_lt members

def kindsOfList (payloads : List Json) : List String :=
  match payloads with
  | [] => []
  | payload :: rest => kinds payload ++ kindsOfList rest
termination_by sizeOf payloads

end

section
variable {s : Schema} {r : Record} {members : List (String × Json)} {kind : String}

theorem truth_not (h : Form.tag? members = some "Not") :
    truth s r (.object members) = (truth s r (Form.child members)).neg := by
  rw [truth, h]; rfl

theorem truth_and (h : Form.tag? members = some "And") :
    truth s r (.object members) = .all (truths s r (Form.children members)) := by
  rw [truth, h]; rfl

theorem truth_or (h : Form.tag? members = some "Or") :
    truth s r (.object members) = .any (truths s r (Form.children members)) := by
  rw [truth, h]; rfl

theorem truth_entity (h : Form.tag? members = some kind)
    (hk : kind ≠ "Not" ∧ kind ≠ "Or" ∧ kind ≠ "And") : truth s r (.object members) =
      .all ((wishes members).map fun (name, value) => memberTruth s kind r name value) := by
  rw [truth, h]
  simp [hk]

theorem kinds_not (h : Form.tag? members = some "Not") :
    kinds (.object members) = kinds (Form.child members) := by
  rw [kinds, h]; rfl

theorem kinds_and (h : Form.tag? members = some "And") :
    kinds (.object members) = kindsOfList (Form.children members) := by
  rw [kinds, h]; rfl

theorem kinds_or (h : Form.tag? members = some "Or") :
    kinds (.object members) = kindsOfList (Form.children members) := by
  rw [kinds, h]; rfl

theorem kinds_entity (h : Form.tag? members = some kind)
    (hk : kind ≠ "Not" ∧ kind ≠ "Or" ∧ kind ≠ "And") : kinds (.object members) = [kind] := by
  rw [kinds, h]
  simp [hk]

theorem mem_wishes_iff {name : String} {value : Json} : (name, value) ∈ wishes members ↔
    (name, value) ∈ members ∧ name ≠ tagKey ∧ value ≠ .null := by
  have hnull : value.isNull = false ↔ value ≠ .null := by cases value <;> simp [Json.isNull]
  simp [wishes, hnull]

end

end Payload

namespace Form
variable {members : List (String × Json)}

theorem hasDistinctKeys_child (h : (Json.object members).hasDistinctKeys) :
    (child members).hasDistinctKeys := by
  unfold child
  cases hc : members.lookup "child" with
  | none => rfl
  | some value =>
    obtain ⟨hnd, hm⟩ := Json.hasDistinctKeys_object_iff.1 h
    exact hm _ ((lookup_eq_some_iff_mem hnd).1 hc)

theorem hasDistinctKeys_of_mem_children (h : (Json.object members).hasDistinctKeys) :
    ∀ payload ∈ children members, payload.hasDistinctKeys := by
  unfold children
  split
  · next items hc =>
    obtain ⟨hnd, hm⟩ := Json.hasDistinctKeys_object_iff.1 h
    exact Json.hasDistinctKeys_array_iff.1 (hm _ ((lookup_eq_some_iff_mem hnd).1 hc))
  · exact nofun

end Form

namespace Form.Admits
variable {s : Schema} {e : Entity} {members : List (String × Json)} {r : Record}

theorem all_tests_eq (h : (ofEntity e).Admits members) (he : s.entity? e.name = some e)
    (hnd : (members.map Prod.fst).Nodup) :
    Truth.all ((((ofEntity e).query members).tests e).map (·.truth r)) =
      .all ((Payload.wishes members).map fun (name, value) =>
        Payload.memberTruth s e.name r name value) := by
  have hwf := Schema.wellFormed_of_entity? he
  obtain ⟨-, hknown⟩ := (admits_ofEntity_iff hwf).1 h
  have hread {name : String} {value : Json} {f : Field} (hf : e.searchableField? name = some f) :
      s.read? e.name name value = Scalar.ofJson? f.type value := by
    simp [Schema.read?, he, Entity.field?_of_searchableField? hf]
  refine Truth.all_congr fun a => ?_
  simp only [List.mem_map]
  constructor
  -- Every test is of a wish, and every wish was a member; the converse holds as the entity lists the
  -- fields of all members that are admitted.
  · rintro ⟨x, hx, rfl⟩
    obtain ⟨-, hget, -⟩ := EntityQuery.mem_tests_iff.1 hx
    obtain ⟨hne, value, f, hm, hf, hvalue⟩ := (get?_query_ofEntity_eq_some_iff hwf hnd).1 hget
    have hnull : value ≠ .null := fun h =>
      hne (Option.some.inj (hvalue.symm.trans (Scalar.ofJson?_eq_null_iff.2 h)))
    have hkey := hwf.ne_tagKey (Entity.field?_of_searchableField? hf)
    refine ⟨(x.field, value), Payload.mem_wishes_iff.2 ⟨hm, hkey, hnull⟩, ?_⟩
    simp only [Payload.memberTruth, hread hf, hvalue, FieldTest.truth]
    cases r.columns.get? x.field <;> rfl
  · rintro ⟨⟨name, value⟩, hm, rfl⟩
    obtain ⟨hm, hkey, hnull⟩ := Payload.mem_wishes_iff.1 hm
    obtain ⟨f, hf, hsome⟩ := hknown _ hm hkey
    obtain ⟨v, hvalue⟩ := Option.isSome_iff_exists.1 hsome
    have hne : v ≠ .null := fun h => hnull (Scalar.ofJson?_eq_null_iff.1 (h ▸ hvalue))
    have hget : ((ofEntity e).query members).get? name = some v :=
      (get?_query_ofEntity_eq_some_iff hwf hnd).2 ⟨hne, value, f, hm, hf, hvalue⟩
    refine ⟨⟨e.name, name, v⟩, EntityQuery.mem_tests_iff.2 ⟨?_, hget, f, ?_⟩, ?_⟩
    · rw [kind_query]; rfl
    · exact hwf.searchableField?_eq_some_iff.1 hf
    · simp only [Payload.memberTruth, hread hf, FieldTest.truth, hvalue]
      cases r.columns.get? name <;> rfl

end Form.Admits

namespace Grammar.Reads
variable {g : Engine} {r : Record}

mutual

theorem kinds_eq {payload : Json} {t : Search} (h : g.grammar.Reads payload t) :
    Payload.kinds payload = t.queries.map EntityQuery.kind := by
  cases h with
  | not _ ha hr => rw [Payload.kinds_not ha.tag, kinds_eq hr, Search.queries]
  | or _ ha hrs => rw [Payload.kinds_or ha.tag, kindsOfList_eq hrs, Search.queries]
  | and _ ha hrs => rw [Payload.kinds_and ha.tag, kindsOfList_eq hrs, Search.queries]
  | entity hform ha =>
    obtain ⟨e, he, -⟩ := Engine.entity_of_mem_forms hform
    obtain ⟨hmem, rfl⟩ := Schema.entity?_eq_some_iff.1 he
    rw [Payload.kinds_entity ha.tag (Engine.kind_ne_operator hmem)]
    simp [Search.queries, Form.tag]
termination_by sizeOf t

theorem kindsOfList_eq {payloads : List Json} {ts : List Search}
    (h : g.grammar.ReadsAll payloads ts) :
    Payload.kindsOfList payloads = (Search.queriesOfList ts).map EntityQuery.kind := by
  cases h with
  | nil => rw [Payload.kindsOfList]; rfl
  | cons hr hrs =>
    rw [Payload.kindsOfList, kinds_eq hr, kindsOfList_eq hrs, Search.queriesOfList, List.map_append]
termination_by sizeOf ts

end

mutual

/-- The predicate of a search has the truth of the payload that the search is read from. -/
theorem kleene_eq_truth {payload : Json} {t : Search} {p : Predicate}
    (h : g.grammar.Reads payload t) (hd : payload.hasDistinctKeys)
    (hp : t.compile g.schema = .ok p) :
    p.kleene (·.truth r) = Payload.truth g.schema r payload := by
  cases h with
  | not _ ha hr =>
    obtain ⟨q, hq, rfl⟩ := map_eq_ok_iff.1 hp
    rw [Predicate.kleene, Payload.truth_not ha.tag,
      kleene_eq_truth hr (Form.hasDistinctKeys_child hd) hq]
  | or _ ha hrs =>
    obtain ⟨ps, hps, rfl⟩ := map_eq_ok_iff.1 hp
    rw [Predicate.kleene_disjunction, Payload.truth_or ha.tag,
      kleenes_eq_truths hrs (Form.hasDistinctKeys_of_mem_children hd) hps]
  | and _ ha hrs =>
    obtain ⟨ps, hps, rfl⟩ := map_eq_ok_iff.1 hp
    rw [Predicate.kleene_conjunction, Payload.truth_and ha.tag,
      kleenes_eq_truths hrs (Form.hasDistinctKeys_of_mem_children hd) hps]
  | entity hform ha =>
    obtain ⟨e, he, hfe⟩ := Engine.entity_of_mem_forms hform
    obtain ⟨hmem, hk⟩ := Schema.entity?_eq_some_iff.1 he
    obtain ⟨-, e', he', rfl⟩ := EntityQuery.compile_eq_ok_iff.1 hp
    rw [Form.kind_query] at he'
    obtain rfl : e = e' := Option.some.inj (he.symm.trans he')
    rw [Payload.truth_entity ha.tag (hk ▸ Engine.kind_ne_operator hmem),
      Predicate.kleene_conjunction, Predicate.kleenes_map_test]
    rw [hfe] at ha ⊢
    exact ha.all_tests_eq (hk ▸ he) (Json.hasDistinctKeys_object_iff.1 hd).1
termination_by sizeOf t

theorem kleenes_eq_truths {payloads : List Json} {ts : List Search} {ps : List Predicate}
    (h : g.grammar.ReadsAll payloads ts) (hd : ∀ payload ∈ payloads, payload.hasDistinctKeys)
    (hps : Search.compileList g.schema ts = .ok ps) :
    Predicate.kleenes (·.truth r) ps = Payload.truths g.schema r payloads := by
  cases h with
  | nil =>
    cases hps
    rw [Payload.truths, Predicate.kleenes]
  | cons hr hrs =>
    obtain ⟨hd, hds⟩ := List.forall_mem_cons.1 hd
    rw [Search.compileList] at hps
    split at hps
    · cases hps
    next p hp =>
    obtain ⟨qs, hqs, rfl⟩ := map_eq_ok_iff.1 hps
    rw [Payload.truths, Predicate.kleenes, kleene_eq_truth hr hd hp, kleenes_eq_truths hrs hds hqs]
termination_by sizeOf ts

end

end Grammar.Reads

end EntitySearch
