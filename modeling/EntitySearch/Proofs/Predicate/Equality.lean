import EntitySearch.Predicate.Eval
import EntitySearch.Proofs.Except
import EntitySearch.Proofs.Number.Value

/-!
# Equality of columns through a constant

Two columns that pass the test for the same constant pass the test for each other, with one exception
(`Predicate.evaluate_get_of_evaluate`). A test for a double takes integers for the nearest doubles, so that two
different integers pass it where they are rounded to the same one (`Scalar.Conflated`), while a test of one
against the other compares them as the integers they are. Not both of them have at most fifty-three bits then.
-/

namespace EntitySearch

namespace Scalar
open Binary64 (ofInt)

/-- Different integers that are rounded to the same double, which is the third value. One of them needs more than
fifty-three bits. -/
inductive Conflated : Scalar → Scalar → Scalar → Prop
  | intro {i j : Int64} {z : Binary64} (ne : i ≠ j) (left : (ofInt i.toInt).numEq z)
      (right : (ofInt j.toInt).numEq z) (large : 2 ^ 53 < i.toInt.natAbs ∨ 2 ^ 53 < j.toInt.natAbs) :
      Conflated (.int i) (.int j) (.float z)

variable {a b v : Scalar} {i j : Int64} {z : Binary64}

theorem Conflated.equals?_eq (h : Conflated a b v) : b.equals? a = some false := by
  obtain ⟨ne, -, -, -⟩ := h
  simp [equals?, ne.symm]

theorem Conflated.large (h : Conflated (.int i) (.int j) v) :
    2 ^ 53 < i.toInt.natAbs ∨ 2 ^ 53 < j.toInt.natAbs := by
  obtain ⟨-, -, -, large⟩ := h
  exact large

theorem eq_or_conflated (hi : (ofInt i.toInt).numEq z) (hj : (ofInt j.toInt).numEq z) :
    i = j ∨ Conflated (.int i) (.int j) (.float z) := by
  by_cases hij : i = j
  · exact .inl hij
  refine .inr (.intro hij hi hj ?_)
  by_contra! hsmall
  have heq : i.toInt = j.toInt := Binary64.eq_of_numEq_ofInt hsmall.1 hsmall.2
    (Binary64.numEq_trans hi (Binary64.numEq_comm .. ▸ hj))
  exact hij (Int64.toInt_inj.1 heq)

theorem equals?_int_iff : a.equals? (.int i) = some true ↔
    a = .int i ∨ ∃ x, a = .float x ∧ x.numEq (ofInt i.toInt) := by
  cases a <;> simp [equals?]

theorem equals?_float_iff : a.equals? (.float z) = some true ↔
    (∃ i, a = .int i ∧ (ofInt i.toInt).numEq z) ∨ ∃ x, a = .float x ∧ x.numEq z := by
  cases a <;> simp [equals?]

theorem equals?_bool_iff {c : Bool} : a.equals? (.bool c) = some true ↔ a = .bool c := by
  cases a <;> simp [equals?]

theorem equals?_string_iff {s : String} : a.equals? (.string s) = some true ↔ a = .string s := by
  cases a <;> simp [equals?]

theorem not_equals?_null : a.equals? .null ≠ some true := by
  cases a <;> simp [equals?]

/-- Equality to a third value is equality unless the values are conflated. By the type of the third value. -/
theorem equals?_of_equals? (ha : a.equals? v = some true) (hb : b.equals? v = some true) :
    b.equals? a = some true ∨ Conflated a b v := by
  cases v with
  | null => exact absurd ha not_equals?_null
  | bool c =>
    rw [equals?_bool_iff] at ha hb
    exact .inl (by rw [ha, equals?_bool_iff, hb])
  | string s =>
    rw [equals?_string_iff] at ha hb
    exact .inl (by rw [ha, equals?_string_iff, hb])
  | int k =>
    left
    rw [equals?_int_iff] at ha hb
    obtain rfl | ⟨x, rfl, hx⟩ := ha
    · exact equals?_int_iff.2 hb
    rw [equals?_float_iff]
    obtain rfl | ⟨y, rfl, hy⟩ := hb
    · exact .inl ⟨k, rfl, Binary64.numEq_comm .. ▸ hx⟩
    · exact .inr ⟨y, rfl, Binary64.numEq_trans hy (Binary64.numEq_comm .. ▸ hx)⟩
  | float z =>
    rw [equals?_float_iff] at ha hb
    obtain ⟨i, rfl, hi⟩ | ⟨x, rfl, hx⟩ := ha
    · obtain ⟨j, rfl, hj⟩ | ⟨y, rfl, hy⟩ := hb
      · obtain rfl | h := eq_or_conflated hi hj
        · exact .inl (equals?_int_iff.2 (.inl rfl))
        · exact .inr h
      · exact .inl (equals?_int_iff.2 (.inr ⟨y, rfl, Binary64.numEq_trans hy (Binary64.numEq_comm .. ▸ hi)⟩))
    · left
      rw [equals?_float_iff]
      obtain ⟨j, rfl, hj⟩ | ⟨y, rfl, hy⟩ := hb
      · exact .inl ⟨j, rfl, Binary64.numEq_trans hj (Binary64.numEq_comm .. ▸ hx)⟩
      · exact .inr ⟨y, rfl, Binary64.numEq_trans hy (Binary64.numEq_comm .. ▸ hx)⟩

end Scalar

namespace Predicate
variable {t : FieldTest} {r r₁ r₂ : Record} {b : Bool}

theorem evaluate_test_of_equals? (hk : t.kind = r.kind) (h : (r.get t.field).equals? t.value = some b) :
    (test t).evaluate r = .ok (.bool b) := by
  have hnull : ¬ (r.get t.field = .null ∨ t.value = .null) := by
    rintro (hn | hn) <;> rw [hn] at h
    · cases h
    · cases hg : r.get t.field <;> rw [hg] at h <;> cases h
  have heval : t.eval r = .ok (.ofBool b) := by
    rw [FieldTest.eval, if_pos hk]
    simp only [if_neg hnull, h]
  rw [evaluate, eval, heval]
  cases b <;> rfl

theorem evaluate_test_eq_true_iff : (test t).evaluate r = .ok (.bool true) ↔
    t.kind = r.kind ∧ (r.get t.field).equals? t.value = some true := by
  refine ⟨fun h => ?_, fun ⟨hk, h⟩ => evaluate_test_of_equals? hk h⟩
  rw [evaluate, eval, FieldTest.eval] at h
  split at h
  · next hk =>
    refine ⟨hk, ?_⟩
    dsimp only at h
    split at h
    · cases h
    · split at h
      · next b hb =>
        cases b
        · cases h
        · exact hb
      · cases h
  · cases h

/-- If two records pass a test, the second one passes the test for the column of the first one, unless the two
columns are different integers that the test takes for the same double; then it does not pass it. That cannot
happen to integers of at most fifty-three bits. -/
theorem evaluate_get_of_evaluate (h₁ : (test t).evaluate r₁ = .ok (.bool true))
    (h₂ : (test t).evaluate r₂ = .ok (.bool true)) :
    (¬ (r₁.get t.field).Conflated (r₂.get t.field) t.value →
      (test ⟨t.kind, t.field, r₁.get t.field⟩).evaluate r₂ = .ok (.bool true)) ∧
    ((r₁.get t.field).Conflated (r₂.get t.field) t.value →
      (test ⟨t.kind, t.field, r₁.get t.field⟩).evaluate r₂ = .ok (.bool false)) ∧
    ∀ i j, r₁.get t.field = .int i → r₂.get t.field = .int j →
      i.toInt.natAbs ≤ 2 ^ 53 → j.toInt.natAbs ≤ 2 ^ 53 → i = j := by
  obtain ⟨-, heq₁⟩ := evaluate_test_eq_true_iff.1 h₁
  obtain ⟨hk, heq₂⟩ := evaluate_test_eq_true_iff.1 h₂
  have hequal := Scalar.equals?_of_equals? heq₁ heq₂
  refine ⟨fun hnot => ?_, fun h => ?_, fun i j hi hj hsmall hsmall' => ?_⟩
  · exact evaluate_test_of_equals? hk (hequal.resolve_right hnot)
  · exact evaluate_test_of_equals? hk h.equals?_eq
  · rw [hi, hj] at hequal
    obtain h | h := hequal
    · obtain h | ⟨x, hx, -⟩ := Scalar.equals?_int_iff.1 h
      · exact (Scalar.int.inj h).symm
      · cases hx
    · have := h.large
      omega

/-- The user with this id, the test for the id, and the doubles 42 and `2 ^ 53`. -/
def userWithId (id : Scalar) : Record := (Record.ofKind "User").set "id" id

def idTest (id : Scalar) : FieldTest := ⟨"User", "id", id⟩

def fortyTwo : Scalar := .float ⟨0x4045000000000000⟩

def twoPowFiftyThree : Scalar := .float ⟨0x4340000000000000⟩

/-- An integer and a double that pass the test for 42. -/
theorem evaluate_get_of_fortyTwo :
    (test (idTest (.int 42))).evaluate (userWithId fortyTwo) = .ok (.bool true) ∧
      (test (idTest (.int 42))).evaluate (userWithId (.int 42)) = .ok (.bool true) ∧
      ¬ ((userWithId fortyTwo).get "id").Conflated ((userWithId (.int 42)).get "id") (.int 42) ∧
      (test (idTest ((userWithId fortyTwo).get "id"))).evaluate (userWithId (.int 42)) = .ok (.bool true) := by
  have h₁ : (test (idTest (.int 42))).evaluate (userWithId fortyTwo) = .ok (.bool true) := by decide +kernel
  have h₂ : (test (idTest (.int 42))).evaluate (userWithId (.int 42)) = .ok (.bool true) := by decide +kernel
  have hnot : ¬ ((userWithId fortyTwo).get "id").Conflated ((userWithId (.int 42)).get "id") (.int 42) := nofun
  exact ⟨h₁, h₂, hnot, (evaluate_get_of_evaluate h₁ h₂).1 hnot⟩

/-- The double `2 ^ 53` passes for two different integers, and the test for the one is false of the other. -/
theorem evaluate_at_two_pow_fiftyThree :
    (userWithId (.int 9007199254740992)).get "id" = .int 9007199254740992 ∧
      (userWithId (.int 9007199254740993)).get "id" = .int 9007199254740993 ∧
      Binary64.isNaN ⟨0x4340000000000000⟩ = false ∧
      (test (idTest twoPowFiftyThree)).evaluate (userWithId (.int 9007199254740992)) = .ok (.bool true) ∧
      (test (idTest twoPowFiftyThree)).evaluate (userWithId (.int 9007199254740993)) = .ok (.bool true) ∧
      (test (idTest ((userWithId (.int 9007199254740992)).get "id"))).evaluate
        (userWithId (.int 9007199254740993)) = .ok (.bool false) := by
  decide +kernel

end Predicate

end EntitySearch
