import EntitySearch.Proofs.Predicate.Completion
import Mathlib.Data.List.Perm.Basic

/-!
# The order of operands

`Predicate.Shuffled` relates predicates that are equal but for the order of the operands of conjunctions
and disjunctions, at any depth. One of them may fail at a test that the other one does not come to, but where both
succeed they give the same (`Predicate.Shuffled.evaluate_inj`): what is found is the Kleene truth with `unknown` put
in for the tests that fail (`Predicate.kleene_outcome`), which looks at all operands.
-/

namespace EntitySearch

namespace Truth
variable {as bs : List Truth}

theorem all_eq_of_perm (h : as.Perm bs) : all as = all bs := all_congr fun _ => h.mem_iff

theorem any_eq_of_perm (h : as.Perm bs) : any as = any bs := by
  rw [any_eq_foldr_max, any_eq_foldr_max]
  exact h.foldr_eq false

end Truth

namespace Predicate
variable {r : Record} {v : FieldTest → Truth}

theorem kleenes_eq_map (ps : List Predicate) : kleenes v ps = ps.map (kleene v) := by
  induction ps with
  | nil => rfl
  | cons p ps ih => rw [kleenes, ih, List.map_cons]

theorem testsOfList_eq_flatMap (ps : List Predicate) : testsOfList ps = ps.flatMap tests := by
  induction ps with
  | nil => rfl
  | cons p ps ih => rw [testsOfList, ih, List.flatMap_cons]

mutual

/-- The predicates are equal but for the order of operands. -/
inductive Shuffled : Predicate → Predicate → Prop
  | refl (p : Predicate) : Shuffled p p
  | not {p p'} (h : Shuffled p p') : Shuffled (.not p) (.not p')
  | and {ps permuted ps'} (operands : ShuffledAll ps permuted) (perm : permuted.Perm ps') :
      Shuffled (.and ps) (.and ps')
  | or {ps permuted ps'} (operands : ShuffledAll ps permuted) (perm : permuted.Perm ps') :
      Shuffled (.or ps) (.or ps')

inductive ShuffledAll : List Predicate → List Predicate → Prop
  | nil : ShuffledAll [] []
  | cons {p p' ps ps'} (head : Shuffled p p') (tail : ShuffledAll ps ps') : ShuffledAll (p :: ps) (p' :: ps')

end

mutual

theorem Shuffled.kleene_eq {p p' : Predicate} (h : p.Shuffled p') : p.kleene v = p'.kleene v := by
  cases h with
  | refl => rfl
  | not h => exact congrArg Truth.neg h.kleene_eq
  | and operands perm =>
    rw [kleene, kleene, operands.kleenes_eq, kleenes_eq_map, kleenes_eq_map]
    exact Truth.all_eq_of_perm (perm.map _)
  | or operands perm =>
    rw [kleene, kleene, operands.kleenes_eq, kleenes_eq_map, kleenes_eq_map]
    exact Truth.any_eq_of_perm (perm.map _)

theorem ShuffledAll.kleenes_eq {ps ps' : List Predicate} (h : ShuffledAll ps ps') :
    kleenes v ps = kleenes v ps' := by
  cases h with
  | nil => rfl
  | cons head tail => rw [kleenes, kleenes, head.kleene_eq, tail.kleenes_eq]

end

mutual

theorem Shuffled.tests_perm {p p' : Predicate} (h : p.Shuffled p') : p.tests.Perm p'.tests := by
  cases h with
  | refl => exact .refl _
  | not h => exact h.tests_perm
  | and operands perm | or operands perm =>
    refine operands.tests_perm.trans ?_
    rw [testsOfList_eq_flatMap, tests, testsOfList_eq_flatMap]
    exact perm.flatMap_right tests

theorem ShuffledAll.tests_perm {ps ps' : List Predicate} (h : ShuffledAll ps ps') :
    (testsOfList ps).Perm (testsOfList ps') := by
  cases h with
  | nil => exact .refl _
  | cons head tail => exact head.tests_perm.append tail.tests_perm

end

theorem exists_evaluate_of_tests {p : Predicate}
    (h : ∀ t ∈ p.tests, ∃ value, (test t).evaluate r = .ok value) : ∃ value, p.evaluate r = .ok value := by
  cases hp : p.evaluate r with
  | ok value => exact ⟨value, rfl⟩
  | error error =>
    obtain ⟨t, ht, herror⟩ := exists_test_of_evaluate_eq_error hp
    obtain ⟨value, hvalue⟩ := h t ht
    rw [herror] at hvalue
    cases hvalue

namespace Shuffled
variable {p p' : Predicate} {value value' : Scalar}

theorem evaluate_inj (h : p.Shuffled p') (hp : p.evaluate r = .ok value) (hp' : p'.evaluate r = .ok value') :
    value = value' := by
  obtain ⟨known, hknown, rfl⟩ := evaluate_eq_ok_iff.1 hp
  obtain ⟨known', hknown', rfl⟩ := evaluate_eq_ok_iff.1 hp'
  rw [← kleene_outcome hknown, ← kleene_outcome hknown', h.kleene_eq]

theorem exists_evaluate (h : p.Shuffled p') (ht : ∀ t ∈ p.tests, ∃ value, (test t).evaluate r = .ok value) :
    ∃ value, p.evaluate r = .ok value ∧ p'.evaluate r = .ok value := by
  obtain ⟨value, hvalue⟩ := exists_evaluate_of_tests ht
  obtain ⟨value', hvalue'⟩ := exists_evaluate_of_tests fun t hmem => ht t (h.tests_perm.mem_iff.2 hmem)
  obtain rfl : value = value' := h.evaluate_inj hvalue hvalue'
  exact ⟨value, hvalue, hvalue'⟩

end Shuffled

-- The test of a company fails on a user, so it must not come first.
example : (and [numbered 2, acme]).evaluate firstUser = .ok (.bool false) ∧
    (and [acme, numbered 2]).evaluate firstUser = .error (.otherKind "Company" "User") := by
  decide

end Predicate

end EntitySearch
