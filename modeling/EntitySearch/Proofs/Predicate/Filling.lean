import EntitySearch.Proofs.Predicate.Completion
import Mathlib.Data.List.Forall2

/-!
# Filling in columns

When columns that read as `null` are filled in later (`Record.FilledBy`), a predicate that was unknown of the record
may become true or false, but one that was true or false of it stays so (`Predicate.evaluate_of_filledBy`).
Besides the order from false to true, truths have one by how much is known (`Truth.KeptBy`), in which all operators
are monotone. The two evaluations need not look at the same operands, but what each of them finds is a Kleene truth
(`Predicate.kleene_outcome`), to which all operands contribute.
-/

namespace EntitySearch

namespace Truth
variable {a a' b b' : Truth} {as bs : List Truth}

/-- What the first truth knows, the second one knows as well. -/
def KeptBy (a b : Truth) : Prop := a = unknown ∨ a = b

theorem KeptBy.neg (h : a.KeptBy b) : a.neg.KeptBy b.neg := by
  rcases h with rfl | rfl
  · exact .inl rfl
  · exact .inr rfl

theorem KeptBy.and (ha : a.KeptBy a') (hb : b.KeptBy b') : (a.and b).KeptBy (a'.and b') := by
  rcases ha with rfl | rfl <;> rcases hb with rfl | rfl
  · exact .inl rfl
  · cases b with
    | false => exact .inr and_false.symm
    | unknown | true => exact .inl rfl
  · cases a with
    | false => exact .inr false_and.symm
    | unknown | true => exact .inl rfl
  · exact .inr rfl

theorem KeptBy.or (ha : a.KeptBy a') (hb : b.KeptBy b') : (a.or b).KeptBy (a'.or b') := by
  simpa only [neg_and, neg_neg] using (ha.neg.and hb.neg).neg

theorem KeptBy.all (h : List.Forall₂ KeptBy as bs) : (Truth.all as).KeptBy (Truth.all bs) := by
  induction h with
  | nil => exact .inr rfl
  | cons ha _ ih => exact ha.and ih

theorem KeptBy.any (h : List.Forall₂ KeptBy as bs) : (Truth.any as).KeptBy (Truth.any bs) := by
  induction h with
  | nil => exact .inr rfl
  | cons ha _ ih => exact ha.or ih

end Truth

namespace Record
variable {r : Record} {field : String}

theorem get_set (r : Record) (field f : String) (value : Scalar) :
    (r.set field value).get f = if f = field then value else r.get f := by
  unfold get set
  rw [FieldMap.get?_insert]
  split <;> rfl

/-- The records are of one kind, and each column of the first one is `null` or the same in the second one. -/
structure FilledBy (r r' : Record) : Prop where
  kind : r.kind = r'.kind
  get : ∀ field, r.get field = .null ∨ r.get field = r'.get field

theorem FilledBy.set (h : r.get field = .null) (value : Scalar) : r.FilledBy (r.set field value) where
  kind := rfl
  get f := by
    rw [get_set]
    by_cases hf : f = field
    · exact .inl (hf ▸ h)
    · exact .inr (if_neg hf).symm

end Record

namespace FieldTest
variable {t : FieldTest} {r r' : Record}

/-- Of a column that is `null` nothing is known, whether the test fails or not. -/
theorem outcome_of_get_eq_null (h : r.get t.field = .null) : t.outcome r = .unknown := by
  unfold outcome eval
  by_cases hk : t.kind = r.kind
  · simp only [if_pos hk, h, true_or, if_true]
  · simp only [if_neg hk]

theorem outcome_keptBy (h : r.FilledBy r') (t : FieldTest) : (t.outcome r).KeptBy (t.outcome r') := by
  rcases h.get t.field with hnull | hsame
  · exact .inl (outcome_of_get_eq_null hnull)
  · have heval : t.eval r = t.eval r' := eval_congr h.kind fun _ => hsame
    exact .inr (by rw [outcome, outcome, heval])

end FieldTest

namespace Predicate
variable {r r' : Record} {v v' : FieldTest → Truth}

mutual

/-- What is known by the tests of a predicate is all that its truth depends on. -/
theorem kleene_keptBy (h : ∀ t, (v t).KeptBy (v' t)) (p : Predicate) : (p.kleene v).KeptBy (p.kleene v') := by
  cases p with
  | always => exact .inr rfl
  | never => exact .inr rfl
  | test t => exact h t
  | not p => exact (kleene_keptBy h p).neg
  | and ps => exact .all (kleenes_keptBy h ps)
  | or ps => exact .any (kleenes_keptBy h ps)

theorem kleenes_keptBy (h : ∀ t, (v t).KeptBy (v' t)) (ps : List Predicate) :
    List.Forall₂ Truth.KeptBy (kleenes v ps) (kleenes v' ps) := by
  cases ps with
  | nil => exact .nil
  | cons p ps => exact .cons (kleene_keptBy h p) (kleenes_keptBy h ps)

end

theorem eval_keptBy {p : Predicate} {known known' : Truth} (h : r.FilledBy r') (hp : p.eval r = .ok known)
    (hp' : p.eval r' = .ok known') : known.KeptBy known' := by
  rw [← kleene_outcome hp, ← kleene_outcome hp']
  exact kleene_keptBy (FieldTest.outcome_keptBy h) p

/-- A boolean that a predicate has is not changed by filling in columns, unless evaluation fails then. -/
theorem evaluate_of_filledBy {p : Predicate} {b : Bool} (h : r.FilledBy r')
    (hp : p.evaluate r = .ok (.bool b)) (hp' : ∃ value, p.evaluate r' = .ok value) :
    p.evaluate r' = .ok (.bool b) := by
  obtain ⟨known, hknown, hb⟩ := evaluate_eq_ok_iff.1 hp
  obtain ⟨_, hvalue⟩ := hp'
  obtain ⟨known', hknown', -⟩ := evaluate_eq_ok_iff.1 hvalue
  rcases eval_keptBy h hknown hknown' with rfl | rfl
  · cases hb
  · exact evaluate_eq_ok_iff.2 ⟨known, hknown', hb⟩

/-- The first user once the last name is known. Evaluation then stops at the last name and not at the
number. A last name that cannot be compared is the error. -/
theorem evaluate_firstUserNamed :
    firstUser.FilledBy (firstUser.set "last_name" (.string "Roe")) ∧
      (not (and [named "Doe", numbered 2])).evaluate firstUser = .ok (.bool true) ∧
      (named "Doe").evaluate firstUser = .ok .null ∧
      (named "Doe").evaluate (firstUser.set "last_name" (.string "Roe")) = .ok (.bool false) ∧
      (not (and [named "Doe", numbered 2])).evaluate (firstUser.set "last_name" (.string "Roe")) =
        .ok (.bool true) ∧
      (not (and [named "Doe", numbered 2])).evaluate (firstUser.set "last_name" (.int 3)) =
        .error (.incomparable "last_name" (.int 3) (.string "Doe")) := by
  have hfilled : firstUser.FilledBy (firstUser.set "last_name" (.string "Roe")) := .set (by decide) _
  have hvalue : (not (and [named "Doe", numbered 2])).evaluate firstUser = .ok (.bool true) := by decide
  have hkept := evaluate_of_filledBy hfilled hvalue ⟨.bool true, by decide⟩
  exact ⟨hfilled, hvalue, by decide, by decide, hkept, by decide⟩

end Predicate

end EntitySearch
