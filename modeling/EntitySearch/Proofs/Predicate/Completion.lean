import EntitySearch.Proofs.Predicate.Kleene
import Mathlib.Order.Lattice
import Mathlib.Order.Nat

/-!
# Evaluation and tests that fail

Evaluation may succeed although some test would fail, and what it gives then does not hang on that test
(`Predicate.evaluate_eq_completion`): in the strong logic of three values, with `false` below `unknown` below `true`,
a predicate is monotone, and whatever truths are put in for the tests that fail, it has the truth that was found.
`Predicate.CanBe` says which truths a predicate gets that way. What was found of an operand list so far is never the
value that settles it, which is the invariant of the two list forms.
-/

namespace EntitySearch

namespace Truth
variable {a b : Truth}

/-- The place of a truth in the order. -/
def rank : Truth → Nat
  | false => 0
  | unknown => 1
  | true => 2

theorem rank_injective : Function.Injective rank := by
  intro a b
  cases a <;> cases b <;> decide

instance : LinearOrder Truth := .lift' rank rank_injective

theorem and_eq_min (a b : Truth) : a.and b = min a b := by
  cases a <;> cases b <;> rfl

theorem or_eq_max (a b : Truth) : a.or b = max a b := by
  cases a <;> cases b <;> rfl

theorem all_eq_foldr_min (as : List Truth) : all as = as.foldr min true := by
  induction as with
  | nil => rfl
  | cons a as ih => rw [all_cons, and_eq_min, ih, List.foldr_cons]

theorem any_eq_foldr_max (as : List Truth) : any as = as.foldr max false := by
  induction as with
  | nil => rfl
  | cons a as ih => rw [any_cons, or_eq_max, ih, List.foldr_cons]

theorem toScalar_inj : a.toScalar = b.toScalar ↔ a = b := by
  cases a <;> cases b <;> decide

theorem toScalar_eq_null_or_bool (a : Truth) : a.toScalar = .null ∨ ∃ b, a.toScalar = .bool b := by
  cases a with
  | false => exact .inr ⟨_, rfl⟩
  | unknown => exact .inl rfl
  | true => exact .inr ⟨_, rfl⟩

end Truth

namespace FieldTest

/-- What the test is of the record, unknown if it fails. -/
def outcome (r : Record) (t : FieldTest) : Truth :=
  match t.eval r with
  | .ok truth => truth
  | .error _ => .unknown

theorem outcome_eq {r : Record} {t : FieldTest} {known : Truth} (h : t.eval r = .ok known) :
    t.outcome r = known := by
  rw [outcome, h]

end FieldTest

namespace Predicate
variable {r : Record}

mutual

/-- The predicate has the truth if each occurrence of a test that fails is given some truth. -/
inductive CanBe (r : Record) : Predicate → Truth → Prop
  | always : CanBe r .always .true
  | never : CanBe r .never .false
  | test {t truth} (h : ∀ known, t.eval r = .ok known → truth = known) : CanBe r (.test t) truth
  | not {p truth} (operand : CanBe r p truth) : CanBe r (.not p) truth.neg
  | and {ps truths} (operands : CanBeAll r ps truths) : CanBe r (.and ps) (truths.foldr min .true)
  | or {ps truths} (operands : CanBeAll r ps truths) : CanBe r (.or ps) (truths.foldr max .false)

inductive CanBeAll (r : Record) : List Predicate → List Truth → Prop
  | nil : CanBeAll r [] []
  | cons {p truth ps truths} (head : CanBe r p truth) (tail : CanBeAll r ps truths) :
      CanBeAll r (p :: ps) (truth :: truths)

end

mutual

/-- Truths that are put in for the tests that fail give the predicate a truth. -/
theorem canBe_kleene {v : FieldTest → Truth} (p : Predicate)
    (h : ∀ t ∈ p.tests, ∀ known, t.eval r = .ok known → v t = known) : p.CanBe r (p.kleene v) := by
  cases p with
  | always => exact .always
  | never => exact .never
  | test t => exact .test (h t (.head _))
  | not p => exact .not (canBe_kleene p h)
  | and ps =>
    rw [kleene, Truth.all_eq_foldr_min]
    exact .and (canBeAll_kleenes ps h)
  | or ps =>
    rw [kleene, Truth.any_eq_foldr_max]
    exact .or (canBeAll_kleenes ps h)

theorem canBeAll_kleenes {v : FieldTest → Truth} (ps : List Predicate)
    (h : ∀ t ∈ testsOfList ps, ∀ known, t.eval r = .ok known → v t = known) :
    CanBeAll r ps (kleenes v ps) := by
  cases ps with
  | nil => exact .nil
  | cons p ps =>
    obtain ⟨hp, hps⟩ := List.forall_mem_append.1 h
    exact .cons (canBe_kleene p hp) (canBeAll_kleenes ps hps)

end

theorem exists_canBe (p : Predicate) (r : Record) : ∃ truth, p.CanBe r truth :=
  ⟨p.kleene (·.outcome r), p.canBe_kleene fun _ _ _ => FieldTest.outcome_eq⟩

mutual

theorem eq_of_canBe {known truth : Truth} (p : Predicate) (h : p.eval r = .ok known)
    (hc : p.CanBe r truth) : truth = known := by
  cases hc with
  | always =>
    cases h
    rfl
  | never =>
    cases h
    rfl
  | test htest => exact htest known h
  | @not p truth hp =>
    obtain ⟨operand, hoperand, rfl⟩ := map_eq_ok_iff.1 h
    rw [eq_of_canBe p hoperand hp]
  | @and ps truths hps =>
    have hall : known = Truth.true.and (.all truths) := eq_all_of_canBeAll ps h nofun hps
    rw [hall, Truth.true_and, Truth.all_eq_foldr_min]
  | @or ps truths hps =>
    have hany : known = Truth.false.or (.any truths) := eq_any_of_canBeAll ps h nofun hps
    rw [hany, Truth.false_or, Truth.any_eq_foldr_max]

theorem eq_all_of_canBeAll {sofar known : Truth} {truths : List Truth} (ps : List Predicate)
    (h : evalAll r sofar ps = .ok known) (hs : sofar ≠ .false) (hc : CanBeAll r ps truths) :
    known = sofar.and (.all truths) := by
  cases hc with
  | nil =>
    cases h
    exact Truth.and_true.symm
  | @cons p truth ps truths hp hps =>
    rw [evalAll] at h
    cases heval : p.eval r with
    | error e =>
      rw [heval] at h
      cases h
    | ok operand =>
      obtain rfl : truth = operand := eq_of_canBe p heval hp
      rw [heval] at h
      rw [Truth.all_cons]
      cases truth with
      | false =>
        cases h
        rw [Truth.false_and, Truth.and_false]
      | true => rw [Truth.true_and, eq_all_of_canBeAll ps h hs hps]
      | unknown => rw [Truth.and_unknown_and hs, eq_all_of_canBeAll ps h nofun hps]

theorem eq_any_of_canBeAll {sofar known : Truth} {truths : List Truth} (ps : List Predicate)
    (h : evalAny r sofar ps = .ok known) (hs : sofar ≠ .true) (hc : CanBeAll r ps truths) :
    known = sofar.or (.any truths) := by
  cases hc with
  | nil =>
    cases h
    exact Truth.or_false.symm
  | @cons p truth ps truths hp hps =>
    rw [evalAny] at h
    cases heval : p.eval r with
    | error e =>
      rw [heval] at h
      cases h
    | ok operand =>
      obtain rfl : truth = operand := eq_of_canBe p heval hp
      rw [heval] at h
      rw [Truth.any_cons]
      cases truth with
      | true =>
        cases h
        rw [Truth.true_or, Truth.or_true]
      | false => rw [Truth.false_or, eq_any_of_canBeAll ps h hs hps]
      | unknown => rw [Truth.or_unknown_or hs, eq_any_of_canBeAll ps h nofun hps]

end

theorem kleene_outcome {p : Predicate} {known : Truth} (h : p.eval r = .ok known) :
    p.kleene (·.outcome r) = known :=
  p.eq_of_canBe h (p.canBe_kleene fun _ _ _ => FieldTest.outcome_eq)

theorem canBe_iff {p : Predicate} {known truth : Truth} (h : p.eval r = .ok known) :
    p.CanBe r truth ↔ truth = known := by
  constructor
  · exact p.eq_of_canBe h
  · rintro rfl
    obtain ⟨truth', hc⟩ := p.exists_canBe r
    exact p.eq_of_canBe h hc ▸ hc

theorem evaluate_eq_ok_iff {p : Predicate} {value : Scalar} :
    p.evaluate r = .ok value ↔ ∃ known, p.eval r = .ok known ∧ known.toScalar = value :=
  map_eq_ok_iff

theorem evaluate_eq_error_iff {p : Predicate} {error : EvalError} :
    p.evaluate r = .error error ↔ p.eval r = .error error :=
  map_eq_error_iff

theorem exists_test_of_evaluate_eq_error {p : Predicate} {error : EvalError}
    (h : p.evaluate r = .error error) : ∃ t ∈ p.tests, (test t).evaluate r = .error error := by
  obtain ⟨t, ht, herror⟩ := p.exists_test_of_eval_eq_error (evaluate_eq_error_iff.1 h)
  have hleaf : (test t).eval r = .error error := herror
  exact ⟨t, ht, evaluate_eq_error_iff.2 hleaf⟩

/-- Evaluation gives a boolean or `null`. It succeeds if no test fails by itself; what it gives, even if
some test fails, is the one truth that the predicate has whatever such tests are given; and an error is
that of a test by itself. -/
theorem evaluate_eq_completion (p : Predicate) (r : Record) :
    (∀ value, p.evaluate r = .ok value → value = .null ∨ ∃ b, value = .bool b) ∧
      ((∀ t ∈ p.tests, ∃ value, (test t).evaluate r = .ok value) →
        ∃ truth : Truth, p.evaluate r = .ok truth.toScalar ∧ p.CanBe r truth) ∧
      (∀ value, p.evaluate r = .ok value →
        ∀ truth : Truth, p.CanBe r truth ↔ truth.toScalar = value) ∧
      ∀ error, p.evaluate r = .error error → ∃ t ∈ p.tests, (test t).evaluate r = .error error := by
  refine ⟨fun value h => ?_, fun h => ?_, fun value h truth => ?_, fun error h => ?_⟩
  · obtain ⟨known, -, rfl⟩ := evaluate_eq_ok_iff.1 h
    exact known.toScalar_eq_null_or_bool
  · cases heval : p.eval r with
    | error error =>
      obtain ⟨t, ht, herror⟩ := exists_test_of_evaluate_eq_error (evaluate_eq_error_iff.2 heval)
      obtain ⟨value, hvalue⟩ := h t ht
      rw [herror] at hvalue
      cases hvalue
    | ok known =>
      have hknown : p.evaluate r = .ok known.toScalar := evaluate_eq_ok_iff.2 ⟨known, heval, rfl⟩
      exact ⟨known, hknown, (canBe_iff heval).2 rfl⟩
  · obtain ⟨known, heval, rfl⟩ := evaluate_eq_ok_iff.1 h
    rw [canBe_iff heval, Truth.toScalar_inj]
  · exact exists_test_of_evaluate_eq_error h

def named (name : String) : Predicate := .test ⟨"User", "last_name", .string name⟩

def numbered (id : Int64) : Predicate := .test ⟨"User", "id", .int id⟩

def acme : Predicate := .test ⟨"Company", "name", .string "Acme"⟩

/-- A user without a last name. -/
def firstUser : Record := (Record.ofKind "User").set "id" (.int 1)

/-- The test of a company fails on a user. Behind an operand that is false it does not matter, and so it
has no say in the result; behind one that is unknown it is the error. -/
theorem evaluate_firstUser :
    acme.evaluate firstUser = .error (.otherKind "Company" "User") ∧
      (not (and [named "Doe", numbered 2, acme])).evaluate firstUser = .ok (.bool true) ∧
      (∀ truth : Truth, (not (and [named "Doe", numbered 2, acme])).CanBe firstUser truth ↔
        truth.toScalar = .bool true) ∧
      (and [named "Doe", acme]).evaluate firstUser = .error (.otherKind "Company" "User") ∧
      (∃ t ∈ (and [named "Doe", acme]).tests,
        (test t).evaluate firstUser = .error (.otherKind "Company" "User")) ∧
      ∃ truth : Truth, (or [named "Doe", numbered 2]).evaluate firstUser = .ok truth.toScalar ∧
        (or [named "Doe", numbered 2]).CanBe firstUser truth := by
  have hvalue : (not (and [named "Doe", numbered 2, acme])).evaluate firstUser = .ok (.bool true) := by
    decide
  have herror : (and [named "Doe", acme]).evaluate firstUser = .error (.otherKind "Company" "User") := by
    decide
  have hleaves : ∀ t ∈ (or [named "Doe", numbered 2]).tests,
      ∃ value, (test t).evaluate firstUser = .ok value := by
    intro t ht
    obtain rfl | rfl : t = ⟨"User", "last_name", .string "Doe"⟩ ∨ t = ⟨"User", "id", .int 2⟩ := by
      simpa [named, numbered, tests, testsOfList] using ht
    · exact ⟨.null, by decide⟩
    · exact ⟨.bool false, by decide⟩
  refine ⟨by decide, hvalue, ?_, herror, ?_, ?_⟩
  · exact (evaluate_eq_completion _ firstUser).2.2.1 _ hvalue
  · exact (evaluate_eq_completion _ firstUser).2.2.2 _ herror
  · exact (evaluate_eq_completion _ firstUser).2.1 hleaves

end Predicate

end EntitySearch
