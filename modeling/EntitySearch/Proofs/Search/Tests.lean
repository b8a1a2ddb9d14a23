import EntitySearch.Predicate.Eval
import EntitySearch.Proofs.Search.Fits

/-!
# The tests of a compiled search

The predicate of a search tests what the search wishes and nothing else: its tests are those of its
entity queries, in order (`Search.tests_compile`). They are as the schema says (`FieldTest.Fits`), which
is all that the types of stored records have to be matched with.
-/

namespace EntitySearch

/-- The test is of a field that the schema knows, for a value of its type. -/
def FieldTest.Fits (s : Schema) (t : FieldTest) : Prop :=
  ∃ e, s.entity? t.kind = some e ∧ ∃ f, e.searchableField? t.field = some f ∧ t.value.type? = some f.type

namespace Predicate

@[simp] theorem testsOfList_map_test (ts : List FieldTest) : testsOfList (ts.map .test) = ts := by
  induction ts with
  | nil => rfl
  | cons t ts ih => exact congrArg (t :: ·) ih

@[simp] theorem tests_conjunction (ps : List Predicate) : (conjunction ps).tests = testsOfList ps := by
  match ps with
  | [] => rfl
  | [p] => exact (List.append_nil _).symm
  | _ :: _ :: _ => rfl

@[simp] theorem tests_disjunction (ps : List Predicate) : (disjunction ps).tests = testsOfList ps := by
  match ps with
  | [] => rfl
  | [p] => exact (List.append_nil _).symm
  | _ :: _ :: _ => rfl

end Predicate

namespace EntityQuery
variable {s : Schema} {q : EntityQuery} {e : Entity} {x : FieldTest}

/-- The tests of a query in the schema, none if its kind is not known. -/
def testsIn (s : Schema) (q : EntityQuery) : List FieldTest := (s.entity? q.kind).elim [] q.tests

theorem mem_tests_iff : x ∈ q.tests e ↔
    x.kind = q.kind ∧ q.get? x.field = some x.value ∧ ∃ f ∈ e.searchableFields, f.name = x.field := by
  simp only [tests, List.mem_filterMap, Option.map_eq_some_iff]
  constructor
  · rintro ⟨f, hf, v, hv, rfl⟩
    exact ⟨rfl, hv, f, hf, rfl⟩
  · rintro ⟨hk, hv, f, hf, hn⟩
    exact ⟨f, hf, x.value, hn ▸ hv, by rw [← hk, hn]⟩

theorem Fits.mem_testsIn_iff (h : q.Fits s) :
    x ∈ q.testsIn s ↔ x.kind = q.kind ∧ q.get? x.field = some x.value := by
  obtain ⟨e, he, hw⟩ := h
  rw [testsIn, he, Option.elim_some, mem_tests_iff]
  refine and_congr_right fun _ => and_iff_left_of_imp fun hv => ?_
  obtain ⟨f, hf, -⟩ := hw _ _ hv
  exact ⟨f, (Schema.wellFormed_of_entity? he).searchableField?_eq_some_iff.1 hf⟩

theorem Fits.fits_test (h : q.Fits s) (hx : x ∈ q.testsIn s) : x.Fits s := by
  obtain ⟨hk, hv⟩ := h.mem_testsIn_iff.1 hx
  obtain ⟨e, he, hw⟩ := h
  exact ⟨e, hk ▸ he, hw _ _ hv⟩

theorem isEmpty_eq_false_of_get? {field : String} {v : Scalar} (h : q.get? field = some v) :
    q.isEmpty = false :=
  List.isEmpty_eq_false_iff_exists_mem.2 ⟨_, get?_eq_some_iff.1 h⟩

theorem tests_compile {p : Predicate} (h : q.compile s = .ok p) : p.tests = q.testsIn s := by
  obtain ⟨-, e, he, rfl⟩ := compile_eq_ok_iff.1 h
  rw [Predicate.tests_conjunction, Predicate.testsOfList_map_test, testsIn, he]
  rfl

end EntityQuery

namespace Search
variable {s : Schema}

mutual

theorem kind?_eq_head? (t : Search) : t.kind? = t.queries.head?.map EntityQuery.kind := by
  cases t with
  | not child => exact kind?_eq_head? child
  | and ts => exact kindOfList?_eq_head? ts
  | or ts => exact kindOfList?_eq_head? ts
  | entity q => rfl

theorem kindOfList?_eq_head? (ts : List Search) :
    kindOfList? ts = (queriesOfList ts).head?.map EntityQuery.kind := by
  cases ts with
  | nil => rfl
  | cons t ts =>
    rw [kindOfList?, kind?_eq_head? t, kindOfList?_eq_head? ts, queriesOfList, List.head?_append]
    cases t.queries.head? <;> rfl

end

mutual

/-- Neither the operators nor the omission of single operands change what is tested. -/
theorem tests_compile {p : Predicate} (t : Search) (h : t.compile s = .ok p) :
    p.tests = t.queries.flatMap (·.testsIn s) := by
  cases t with
  | not child =>
    obtain ⟨p, hp, rfl⟩ := map_eq_ok_iff.1 h
    show p.tests = child.queries.flatMap _
    exact tests_compile child hp
  | and ts =>
    obtain ⟨ps, hps, rfl⟩ := map_eq_ok_iff.1 h
    rw [Predicate.tests_conjunction]
    exact tests_compileList ts hps
  | or ts =>
    obtain ⟨ps, hps, rfl⟩ := map_eq_ok_iff.1 h
    rw [Predicate.tests_disjunction]
    exact tests_compileList ts hps
  | entity q =>
    rw [EntityQuery.tests_compile h, queries, List.flatMap_singleton]

theorem tests_compileList {ps : List Predicate} (ts : List Search) (h : compileList s ts = .ok ps) :
    Predicate.testsOfList ps = (queriesOfList ts).flatMap (·.testsIn s) := by
  cases ts with
  | nil => cases h; rfl
  | cons t ts =>
    rw [compileList] at h
    split at h
    · cases h
    next p hp =>
    obtain ⟨ps, hps, rfl⟩ := map_eq_ok_iff.1 h
    rw [Predicate.testsOfList, queriesOfList, List.flatMap_append, tests_compile t hp,
      tests_compileList ts hps]

end

theorem exists_query_of_mem_tests {t : Search} {p : Predicate} {x : FieldTest}
    (h : t.compile s = .ok p) (hx : x ∈ p.tests) :
    x.Fits s ∧ ∃ q ∈ t.queries, q.kind = x.kind ∧ q.isEmpty = false := by
  rw [tests_compile t h] at hx
  obtain ⟨q, hq, hx⟩ := List.mem_flatMap.1 hx
  have hfits : q.Fits s := (exists_compile_iff t).1 ⟨p, h⟩ q hq
  obtain ⟨hk, hv⟩ := hfits.mem_testsIn_iff.1 hx
  exact ⟨hfits.fits_test hx, q, hq, hk.symm, EntityQuery.isEmpty_eq_false_of_get? hv⟩

end Search

end EntitySearch
