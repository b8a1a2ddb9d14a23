import EntitySearch.Proofs.Search.SchemaForms

/-!
# Searches that fit a schema

A search fits a schema if each of its entity queries does (`EntityQuery.Fits`). The compiler takes exactly the searches
that fit (`Search.exists_compile_iff`), by looking fields up among all fields of the entity. A grammar reads only such
searches (`Grammar.Reads.fits`), having picked the searchable fields beforehand.
-/

namespace EntitySearch

namespace EntityQuery
variable {s : Schema} {q : EntityQuery} {e : Entity} {p : Predicate}

def Fits (s : Schema) (q : EntityQuery) : Prop :=
  ∃ e, s.entity? q.kind = some e ∧ ∀ field v, q.get? field = some v →
    ∃ f, e.searchableField? field = some f ∧ v.type? = some f.type

theorem wishError?_eq_none_iff {field : String} {v : Scalar} (hv : v ≠ .null) :
    wishError? e field v = none ↔
      ∃ f, e.searchableField? field = some f ∧ v.type? = some f.type := by
  unfold wishError?
  cases e.searchableField? field with
  | none => simp
  | some f => simp [← Scalar.fits_iff hv]

theorem findSome?_wishError?_eq_none_iff :
    (q.wanted.entries.findSome? fun (field, v) => wishError? e field v) = none ↔
      ∀ field v, q.get? field = some v →
        ∃ f, e.searchableField? field = some f ∧ v.type? = some f.type := by
  rw [List.findSome?_eq_none_iff]
  constructor
  · intro h field v hv
    exact (wishError?_eq_none_iff (ne_null_of_get? hv)).1 (h _ (get?_eq_some_iff.1 hv))
  · rintro h ⟨field, v⟩ hv
    exact (wishError?_eq_none_iff (q.wanted_ne_null _ hv)).2 (h field v (get?_eq_some_iff.2 hv))

theorem compile_eq_ok_iff : q.compile s = .ok p ↔
    q.Fits s ∧ ∃ e, s.entity? q.kind = some e ∧ p = .conjunction ((q.tests e).map .test) := by
  unfold compile Fits
  cases s.entity? q.kind with
  | none => simp
  | some e =>
    simp only [Option.some.injEq, exists_eq_left', ← findSome?_wishError?_eq_none_iff]
    cases q.wanted.entries.findSome? fun (field, v) => wishError? e field v with
    | some error => simp
    | none => simp [eq_comm]

theorem exists_compile_iff : (∃ p, q.compile s = .ok p) ↔ q.Fits s := by
  simp only [compile_eq_ok_iff]
  constructor
  · rintro ⟨_, h, _⟩
    exact h
  · intro h
    obtain ⟨e, he, _⟩ := id h
    exact ⟨_, h, e, he, rfl⟩

end EntityQuery

namespace Search
variable {s : Schema}

def Fits (s : Schema) (t : Search) : Prop := ∀ q ∈ t.queries, q.Fits s

mutual

theorem errorOf?_compile (s : Schema) (t : Search) :
    errorOf? (t.compile s) = t.queries.findSome? fun q => errorOf? (q.compile s) := by
  cases t with
  | not child => rw [compile, errorOf?_map, errorOf?_compile s child, queries]
  | and ts => rw [compile, errorOf?_map, errorOf?_compileList s ts, queries]
  | or ts => rw [compile, errorOf?_map, errorOf?_compileList s ts, queries]
  | entity q => rw [compile, queries, List.findSome?_singleton]

theorem errorOf?_compileList (s : Schema) (ts : List Search) :
    errorOf? (compileList s ts) = (queriesOfList ts).findSome? fun q => errorOf? (q.compile s) := by
  cases ts with
  | nil => rfl
  | cons t ts =>
    rw [compileList, queriesOfList, List.findSome?_append, ← errorOf?_compile s t,
      ← errorOf?_compileList s ts]
    cases t.compile s with
    | error e => rfl
    | ok p => exact errorOf?_map

end

theorem exists_compile_iff (t : Search) : (∃ p, t.compile s = .ok p) ↔ t.Fits s := by
  rw [← errorOf?_eq_none_iff, errorOf?_compile, List.findSome?_eq_none_iff]
  simp only [errorOf?_eq_none_iff, EntityQuery.exists_compile_iff, Fits]

end Search

namespace Grammar.Reads
variable {g : Engine}

theorem fits_query {kind : String} {fields : List (String × ScalarType)}
    {members : List (String × Json)} (hform : .entity kind fields ∈ g.grammar.forms) :
    ((Form.entity kind fields).query members).Fits g.schema := by
  obtain ⟨e, he, hf⟩ := Engine.entity_of_mem_forms hform
  have hkind : e.name = kind := Schema.name_of_entity? he
  refine ⟨e, by rw [Form.kind_query]; exact he, fun field v hv => ?_⟩
  obtain ⟨value, -, hscalar⟩ := Form.scalar?_of_get?_query hv
  rw [hf, Form.scalar?_ofEntity (Schema.wellFormed_of_entity? he)] at hscalar
  obtain ⟨f, hfield, hread⟩ := Option.bind_eq_some_iff.1 hscalar
  exact ⟨f, hfield, Scalar.type?_of_ofJson? hread (EntityQuery.ne_null_of_get? hv)⟩

mutual

theorem forall_queries {P : EntityQuery → Prop} {payload : Json} {t : Search}
    (hP : ∀ kind fields members, .entity kind fields ∈ g.grammar.forms →
      P ((Form.entity kind fields).query members))
    (h : g.grammar.Reads payload t) : ∀ q ∈ t.queries, P q := by
  cases h with
  | not _ _ hr => exact fun q hq => forall_queries hP hr q hq
  | or _ _ hrs => exact forall_queriesOfList hP hrs
  | and _ _ hrs => exact forall_queriesOfList hP hrs
  | entity hform _ =>
    intro q hq
    rw [List.mem_singleton.1 hq]
    exact hP _ _ _ hform
termination_by sizeOf t

theorem forall_queriesOfList {P : EntityQuery → Prop} {payloads : List Json} {ts : List Search}
    (hP : ∀ kind fields members, .entity kind fields ∈ g.grammar.forms →
      P ((Form.entity kind fields).query members))
    (h : g.grammar.ReadsAll payloads ts) : ∀ q ∈ Search.queriesOfList ts, P q := by
  cases h with
  | nil => simp [Search.queriesOfList]
  | cons hr hrs =>
    exact List.forall_mem_append.2 ⟨forall_queries hP hr, forall_queriesOfList hP hrs⟩
termination_by sizeOf ts

end

theorem fits {payload : Json} {t : Search} (h : g.grammar.Reads payload t) : t.Fits g.schema :=
  h.forall_queries fun _ _ _ => fits_query

end Grammar.Reads

end EntitySearch
