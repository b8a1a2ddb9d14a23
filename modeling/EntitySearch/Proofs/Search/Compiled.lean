import EntitySearch.Proofs.Predicate.Shuffled
import EntitySearch.Proofs.Search.FirstError
import EntitySearch.Proofs.Search.Tests

/-!
# The form of compiled predicates

A compiled predicate has no conjunction or disjunction of less than two operands, at any depth, and its tests
are well typed (`Search.built_wellTyped`). `Predicate.Built` says what holds of all operators and of all tests in a
predicate. It is kept by `Predicate.conjunction` and `Predicate.disjunction`, through which the compiler puts operators
everywhere.
-/

namespace EntitySearch

/-- The test is of a field that may be searched, for a value of its type. -/
structure FieldTest.WellTyped (s : Schema) (x : FieldTest) : Prop where
  field : ∃ type, s.Declares x.kind x.field type ∧ x.value.type? = some type
  ne_null : x.value ≠ .null

namespace Predicate

/-- All conjunctions and disjunctions in the predicate have an arity that is allowed, and so has each test its
property. -/
inductive Built (arity : Nat → Prop) (leaf : FieldTest → Prop) : Predicate → Prop
  | always : Built arity leaf .always
  | never : Built arity leaf .never
  | test {t} (h : leaf t) : Built arity leaf (.test t)
  | not {p} (operand : Built arity leaf p) : Built arity leaf (.not p)
  | and {ps} (count : arity ps.length) (operands : ∀ p ∈ ps, Built arity leaf p) : Built arity leaf (.and ps)
  | or {ps} (count : arity ps.length) (operands : ∀ p ∈ ps, Built arity leaf p) : Built arity leaf (.or ps)

theorem mem_testsOfList_iff {x : FieldTest} {ps : List Predicate} :
    x ∈ testsOfList ps ↔ ∃ p ∈ ps, x ∈ p.tests := by
  rw [testsOfList_eq_flatMap, List.mem_flatMap]

namespace Built
variable {leaf : FieldTest → Prop} {ps : List Predicate}

theorem mono {arity arity' : Nat → Prop} {leaf' : FieldTest → Prop} {p : Predicate} (h : p.Built arity leaf)
    (harity : ∀ n, arity n → arity' n) (hleaf : ∀ x ∈ p.tests, leaf x → leaf' x) : p.Built arity' leaf' := by
  induction h with
  | always => exact .always
  | never => exact .never
  | test hx => exact .test (hleaf _ (by simp [tests]) hx)
  | not _ ih => exact .not (ih hleaf)
  | and hcount _ ih =>
    refine .and (harity _ hcount) fun p hp => ih p hp fun x hx => hleaf x ?_
    exact mem_testsOfList_iff.2 ⟨p, hp, hx⟩
  | or hcount _ ih =>
    refine .or (harity _ hcount) fun p hp => ih p hp fun x hx => hleaf x ?_
    exact mem_testsOfList_iff.2 ⟨p, hp, hx⟩

theorem conjunction (h : ∀ p ∈ ps, p.Built (2 ≤ ·) leaf) : (Predicate.conjunction ps).Built (2 ≤ ·) leaf := by
  match ps with
  | [] => exact .always
  | [p] => exact h p (.head _)
  | _ :: _ :: _ => exact .and (by simp) h

theorem disjunction (h : ∀ p ∈ ps, p.Built (2 ≤ ·) leaf) : (Predicate.disjunction ps).Built (2 ≤ ·) leaf := by
  match ps with
  | [] => exact .never
  | [p] => exact h p (.head _)
  | _ :: _ :: _ => exact .or (by simp) h

end Built
end Predicate

namespace EntityQuery
variable {s : Schema} {q : EntityQuery} {x : FieldTest} {p : Predicate} {leaf : FieldTest → Prop}

theorem WellTyped.test (h : q.WellTyped s) (hx : x ∈ q.testsIn s) : x.WellTyped s := by
  obtain ⟨hkind, hvalue⟩ := (fits_iff_wellTyped.2 h).mem_testsIn_iff.1 hx
  exact ⟨hkind ▸ h.wishes _ _ hvalue, ne_null_of_get? hvalue⟩

theorem built_of_compile (h : q.compile s = .ok p) (hleaf : ∀ x ∈ q.testsIn s, leaf x) :
    p.Built (2 ≤ ·) leaf := by
  obtain ⟨-, e, he, rfl⟩ := compile_eq_ok_iff.1 h
  refine .conjunction fun p hp => ?_
  obtain ⟨x, hx, rfl⟩ := List.mem_map.1 hp
  have hmem : x ∈ q.testsIn s := by
    rw [testsIn, he]
    exact hx
  exact .test (hleaf x hmem)

end EntityQuery

namespace Search
variable {s : Schema} {leaf : FieldTest → Prop}

mutual

theorem built_of_compile {p : Predicate} (t : Search) (h : t.compile s = .ok p)
    (hleaf : ∀ q ∈ t.queries, ∀ x ∈ q.testsIn s, leaf x) : p.Built (2 ≤ ·) leaf := by
  cases t with
  | not child =>
    obtain ⟨p, hp, rfl⟩ := map_eq_ok_iff.1 h
    exact .not (built_of_compile child hp hleaf)
  | and ts =>
    obtain ⟨ps, hps, rfl⟩ := map_eq_ok_iff.1 h
    exact .conjunction (built_of_compileList ts hps hleaf)
  | or ts =>
    obtain ⟨ps, hps, rfl⟩ := map_eq_ok_iff.1 h
    exact .disjunction (built_of_compileList ts hps hleaf)
  | entity q => exact EntityQuery.built_of_compile h (hleaf q (.head _))

theorem built_of_compileList {ps : List Predicate} (ts : List Search) (h : compileList s ts = .ok ps)
    (hleaf : ∀ q ∈ queriesOfList ts, ∀ x ∈ q.testsIn s, leaf x) : ∀ p ∈ ps, p.Built (2 ≤ ·) leaf := by
  cases ts with
  | nil =>
    cases h
    simp
  | cons t ts =>
    rw [compileList] at h
    split at h
    · cases h
    next p hp =>
    obtain ⟨ps, hps, rfl⟩ := map_eq_ok_iff.1 h
    obtain ⟨ht, hts⟩ := List.forall_mem_append.1 hleaf
    exact List.forall_mem_cons.2 ⟨built_of_compile t hp ht, built_of_compileList ts hps hts⟩

end

/-- Operators are left out where they would join less than two predicates, and all tests are well typed. -/
theorem built_wellTyped {t : Search} {p : Predicate} (h : t.compile s = .ok p) :
    p.Built (2 ≤ ·) (FieldTest.WellTyped s) := by
  have hfits : t.Fits s := (exists_compile_iff t).1 ⟨p, h⟩
  refine built_of_compile t h fun q hq x hx => ?_
  exact (EntityQuery.fits_iff_wellTyped.1 (hfits q hq)).test hx

/-- User 7, called Doe, under operators that do nothing. A first name was wished for and taken back. -/
def doeSeven : Search :=
  .and [.or [.or [],
    .and [.entity ((((EntityQuery.ofKind "User").set "last_name" (.string "Doe")).set "first_name"
      (.string "Jo")).set "first_name" .null),
    .and [.entity ((EntityQuery.ofKind "User").set "id" (.int 7))]]]]

/-- The operators of a single operand are gone, and so is the test of the first name. -/
theorem built_doeSeven :
    doeSeven.compile .usersAndCompanies = .ok (.or [.never,
        .and [.test ⟨"User", "last_name", .string "Doe"⟩, .test ⟨"User", "id", .int 7⟩]]) ∧
      (Predicate.or [.never, .and [.test ⟨"User", "last_name", .string "Doe"⟩,
        .test ⟨"User", "id", .int 7⟩]]).Built (2 ≤ ·) (FieldTest.WellTyped .usersAndCompanies) := by
  have h : doeSeven.compile .usersAndCompanies = .ok (.or [.never,
      .and [.test ⟨"User", "last_name", .string "Doe"⟩, .test ⟨"User", "id", .int 7⟩]]) := by
    decide +kernel
  exact ⟨h, built_wellTyped h⟩

end Search

end EntitySearch
