import EntitySearch.Predicate.Eval
import EntitySearch.Proofs.Except

/-!
# The strong logic of three values

`Predicate.kleene` gives a predicate its truth from truths for its tests, all operands being looked at; it is only
unknown if a test is (`Predicate.exists_test_of_kleene_eq_unknown`). Evaluation stops early, so an error may stay
hidden. Where no test fails it gives the Kleene truth (`Predicate.eval_eq_kleene`), and if it fails then some test does
(`Predicate.exists_test_of_eval_eq_error`).
-/

namespace EntitySearch

namespace Truth
variable {a b : Truth} {as bs : List Truth}

protected def and : Truth → Truth → Truth
  | false, _ | _, false => false
  | true, true => true
  | _, _ => unknown

protected def or : Truth → Truth → Truth
  | true, _ | _, true => true
  | false, false => false
  | _, _ => unknown

def all (as : List Truth) : Truth := as.foldr .and true

def any (as : List Truth) : Truth := as.foldr .or false

@[simp] theorem all_nil : all [] = true := rfl

@[simp] theorem all_cons : all (a :: as) = a.and (all as) := rfl

@[simp] theorem any_nil : any [] = false := rfl

@[simp] theorem any_cons : any (a :: as) = a.or (any as) := rfl

@[simp] theorem false_and : false.and a = false := rfl

@[simp] theorem and_false : a.and false = false := by cases a <;> rfl

@[simp] theorem true_and : true.and a = a := by cases a <;> rfl

@[simp] theorem and_true : a.and true = a := by cases a <;> rfl

@[simp] theorem true_or : true.or a = true := rfl

@[simp] theorem or_true : a.or true = true := by cases a <;> rfl

@[simp] theorem false_or : false.or a = a := by cases a <;> rfl

@[simp] theorem or_false : a.or false = a := by cases a <;> rfl

@[simp] theorem neg_neg (a : Truth) : a.neg.neg = a := by cases a <;> rfl

theorem neg_and (a b : Truth) : (a.and b).neg = a.neg.or b.neg := by cases a <;> cases b <;> rfl

theorem and_unknown_and (ha : a ≠ false) : a.and (unknown.and b) = unknown.and b := by
  cases a <;> cases b <;> first | rfl | exact absurd rfl ha

theorem or_unknown_or (ha : a ≠ true) : a.or (unknown.or b) = unknown.or b := by
  cases a <;> cases b <;> first | rfl | exact absurd rfl ha

theorem neg_eq_true_iff : a.neg = true ↔ a = false := by
  cases a <;> decide

theorem neg_eq_unknown_iff : a.neg = unknown ↔ a = unknown := by
  cases a <;> decide

theorem and_eq_false_iff : a.and b = false ↔ a = false ∨ b = false := by
  cases a <;> cases b <;> decide

theorem and_eq_true_iff : a.and b = true ↔ a = true ∧ b = true := by
  cases a <;> cases b <;> decide

theorem all_eq_false_iff : all as = false ↔ false ∈ as := by
  induction as with
  | nil => simp
  | cons a as ih => rw [all_cons, and_eq_false_iff, ih, List.mem_cons, eq_comm]

theorem all_eq_true_iff : all as = true ↔ ∀ a ∈ as, a = true := by
  induction as with
  | nil => simp
  | cons a as ih => rw [all_cons, and_eq_true_iff, ih, List.forall_mem_cons]

theorem eq_unknown_of_and_eq (h : a.and b = unknown) : a = unknown ∨ b = unknown := by
  cases a <;> cases b <;> simp_all [Truth.and]

theorem eq_unknown_of_or_eq (h : a.or b = unknown) : a = unknown ∨ b = unknown := by
  cases a <;> cases b <;> simp_all [Truth.or]

theorem unknown_mem_of_all_eq (h : all as = unknown) : unknown ∈ as := by
  induction as with
  | nil => cases h
  | cons a as ih =>
    rcases eq_unknown_of_and_eq h with rfl | has
    · exact .head _
    · exact .tail _ (ih has)

theorem unknown_mem_of_any_eq (h : any as = unknown) : unknown ∈ as := by
  induction as with
  | nil => cases h
  | cons a as ih =>
    rcases eq_unknown_of_or_eq h with rfl | has
    · exact .head _
    · exact .tail _ (ih has)

/-- Neither the order of the operands nor their repetition matters. -/
theorem all_congr (h : ∀ a, a ∈ as ↔ a ∈ bs) : all as = all bs := by
  have hfalse : all as = false ↔ all bs = false := by
    rw [all_eq_false_iff, all_eq_false_iff, h]
  have htrue : all as = true ↔ all bs = true := by
    simp only [all_eq_true_iff, h]
  cases ha : all as <;> cases hb : all bs <;> simp_all

end Truth

/-- A test only asks a record of its kind, and only for its field. -/
theorem FieldTest.eval_congr {t : FieldTest} {r r' : Record} (hkind : r.kind = r'.kind)
    (hget : t.kind = r.kind → r.get t.field = r'.get t.field) : t.eval r = t.eval r' := by
  unfold eval
  rw [← hkind]
  by_cases hk : t.kind = r.kind
  · simp only [if_pos hk, hget hk]
  · -- The kinds differ, and the error tells of the kinds alone.
    simp only [if_neg hk]

namespace Predicate
variable {r : Record} {v : FieldTest → Truth}

mutual

/-- The truth of a predicate of which the tests have the truths `v`. -/
def kleene (v : FieldTest → Truth) : Predicate → Truth
  | always => .true
  | never => .false
  | test t => v t
  | not p => (p.kleene v).neg
  | and ps => .all (kleenes v ps)
  | or ps => .any (kleenes v ps)

def kleenes (v : FieldTest → Truth) : List Predicate → List Truth
  | [] => []
  | p :: ps => p.kleene v :: kleenes v ps

end

theorem kleene_conjunction (ps : List Predicate) : (conjunction ps).kleene v = .all (kleenes v ps) := by
  match ps with
  | [] => rfl
  | [p] => exact Truth.and_true.symm
  | _ :: _ :: _ => rfl

theorem kleene_disjunction (ps : List Predicate) : (disjunction ps).kleene v = .any (kleenes v ps) := by
  match ps with
  | [] => rfl
  | [p] => exact Truth.or_false.symm
  | _ :: _ :: _ => rfl

theorem kleenes_map_test (ts : List FieldTest) : kleenes v (ts.map .test) = ts.map v := by
  induction ts with
  | nil => rfl
  | cons t ts ih => exact congrArg (v t :: ·) ih

mutual

/-- No operator turns what is known into what is not. -/
theorem exists_test_of_kleene_eq_unknown (p : Predicate) (h : p.kleene v = .unknown) :
    ∃ t ∈ p.tests, v t = .unknown := by
  cases p with
  | always => cases h
  | never => cases h
  | test t => exact ⟨t, .head _, h⟩
  | not p =>
    have hp : p.kleene v = .unknown := Truth.neg_eq_unknown_iff.1 h
    exact exists_test_of_kleene_eq_unknown p hp
  | and ps => exact exists_test_of_unknown_mem ps (Truth.unknown_mem_of_all_eq h)
  | or ps => exact exists_test_of_unknown_mem ps (Truth.unknown_mem_of_any_eq h)

theorem exists_test_of_unknown_mem (ps : List Predicate) (h : .unknown ∈ kleenes v ps) :
    ∃ t ∈ testsOfList ps, v t = .unknown := by
  cases ps with
  | nil => cases h
  | cons p ps =>
    rcases List.mem_cons.1 h with hp | hps
    · obtain ⟨t, ht, hv⟩ := exists_test_of_kleene_eq_unknown p hp.symm
      exact ⟨t, List.mem_append_left _ ht, hv⟩
    · obtain ⟨t, ht, hv⟩ := exists_test_of_unknown_mem ps hps
      exact ⟨t, List.mem_append_right _ ht, hv⟩

end

-- The list forms carry what was found so far, which is never the value that settles the result.
mutual

theorem eval_eq_kleene (p : Predicate) (h : ∀ t ∈ p.tests, t.eval r = .ok (v t)) :
    p.eval r = .ok (p.kleene v) := by
  cases p with
  | always => rfl
  | never => rfl
  | test t => exact h t (.head _)
  | not p => exact map_eq_ok_iff.2 ⟨_, eval_eq_kleene p h, rfl⟩
  | and ps => rw [eval, evalAll_eq_kleenes .true ps h nofun, Truth.true_and, kleene]
  | or ps => rw [eval, evalAny_eq_kleenes .false ps h nofun, Truth.false_or, kleene]

theorem evalAll_eq_kleenes (sofar : Truth) (ps : List Predicate)
    (h : ∀ t ∈ testsOfList ps, t.eval r = .ok (v t)) (hs : sofar ≠ .false) :
    evalAll r sofar ps = .ok (sofar.and (.all (kleenes v ps))) := by
  cases ps with
  | nil => exact congrArg _ Truth.and_true.symm
  | cons p ps =>
    obtain ⟨hp, hps⟩ := List.forall_mem_append.1 h
    rw [evalAll, eval_eq_kleene p hp, kleenes, Truth.all_cons]
    cases p.kleene v with
    | false => rw [Truth.false_and, Truth.and_false]
    | true => exact (evalAll_eq_kleenes sofar ps hps hs).trans (by rw [Truth.true_and])
    | unknown =>
      exact (evalAll_eq_kleenes .unknown ps hps nofun).trans (by rw [Truth.and_unknown_and hs])

theorem evalAny_eq_kleenes (sofar : Truth) (ps : List Predicate)
    (h : ∀ t ∈ testsOfList ps, t.eval r = .ok (v t)) (hs : sofar ≠ .true) :
    evalAny r sofar ps = .ok (sofar.or (.any (kleenes v ps))) := by
  cases ps with
  | nil => exact congrArg _ Truth.or_false.symm
  | cons p ps =>
    obtain ⟨hp, hps⟩ := List.forall_mem_append.1 h
    rw [evalAny, eval_eq_kleene p hp, kleenes, Truth.any_cons]
    cases p.kleene v with
    | true => rw [Truth.true_or, Truth.or_true]
    | false => exact (evalAny_eq_kleenes sofar ps hps hs).trans (by rw [Truth.false_or])
    | unknown =>
      exact (evalAny_eq_kleenes .unknown ps hps nofun).trans (by rw [Truth.or_unknown_or hs])

end

mutual

theorem exists_test_of_eval_eq_error {error : EvalError} (p : Predicate) (h : p.eval r = .error error) :
    ∃ t ∈ p.tests, t.eval r = .error error := by
  cases p with
  | always => cases h
  | never => cases h
  | test t => exact ⟨t, .head _, h⟩
  | not p => exact exists_test_of_eval_eq_error p (map_eq_error_iff.1 h)
  | and ps => exact exists_test_of_evalAll_eq_error .true ps h
  | or ps => exact exists_test_of_evalAny_eq_error .false ps h

theorem exists_test_of_evalAll_eq_error {error : EvalError} (sofar : Truth) (ps : List Predicate)
    (h : evalAll r sofar ps = .error error) : ∃ t ∈ testsOfList ps, t.eval r = .error error := by
  cases ps with
  | nil => cases h
  | cons p ps =>
    have later : ∀ sofar, evalAll r sofar ps = .error error →
        ∃ t ∈ testsOfList (p :: ps), t.eval r = .error error := fun sofar h =>
      let ⟨t, ht, herror⟩ := exists_test_of_evalAll_eq_error sofar ps h
      ⟨t, List.mem_append_right _ ht, herror⟩
    cases hp : p.eval r with
    | error e =>
      obtain ⟨t, ht, herror⟩ := exists_test_of_eval_eq_error p hp
      rw [evalAll, hp] at h
      exact ⟨t, List.mem_append_left _ ht, herror.trans h⟩
    | ok truth =>
      rw [evalAll, hp] at h
      cases truth with
      | false => cases h
      | true => exact later sofar h
      | unknown => exact later .unknown h

theorem exists_test_of_evalAny_eq_error {error : EvalError} (sofar : Truth) (ps : List Predicate)
    (h : evalAny r sofar ps = .error error) : ∃ t ∈ testsOfList ps, t.eval r = .error error := by
  cases ps with
  | nil => cases h
  | cons p ps =>
    have later : ∀ sofar, evalAny r sofar ps = .error error →
        ∃ t ∈ testsOfList (p :: ps), t.eval r = .error error := fun sofar h =>
      let ⟨t, ht, herror⟩ := exists_test_of_evalAny_eq_error sofar ps h
      ⟨t, List.mem_append_right _ ht, herror⟩
    cases hp : p.eval r with
    | error e =>
      obtain ⟨t, ht, herror⟩ := exists_test_of_eval_eq_error p hp
      rw [evalAny, hp] at h
      exact ⟨t, List.mem_append_left _ ht, herror.trans h⟩
    | ok truth =>
      rw [evalAny, hp] at h
      cases truth with
      | true => cases h
      | false => exact later sofar h
      | unknown => exact later .unknown h

end

theorem selects_of_eval {p : Predicate} {truth : Truth} (h : p.eval r = .ok truth) :
    p.selects r = .ok (decide (truth = .true)) := by
  rw [selects, evaluate, h]
  cases truth <;> rfl

theorem selects_eq_error_iff {p : Predicate} {error : EvalError} :
    p.selects r = .error error ↔ p.eval r = .error error := by
  rw [selects, evaluate, map_eq_error_iff, map_eq_error_iff]

end Predicate

end EntitySearch
