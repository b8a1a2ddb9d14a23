/-!
# Results under `Except.map`

What `Except.map` does to results, the error of those that are one (`errorOf?`), and results that go side by
side (`Matching`).
-/

namespace EntitySearch

variable {ε α β : Type} {f : α → β} {x : Except ε α}

@[simp] theorem map_ok (f : α → β) (a : α) : (.ok a : Except ε α).map f = .ok (f a) := rfl

@[simp] theorem map_error (f : α → β) (e : ε) : (.error e : Except ε α).map f = .error e := rfl

theorem map_eq_ok_iff {b : β} : x.map f = .ok b ↔ ∃ a, x = .ok a ∧ f a = b := by
  cases x <;> simp

theorem map_eq_error_iff {e : ε} : x.map f = .error e ↔ x = .error e := by
  cases x <;> simp

def errorOf? : Except ε α → Option ε
  | .error e => some e
  | .ok _ => none

@[simp] theorem errorOf?_map : errorOf? (x.map f) = errorOf? x := by
  cases x <;> rfl

theorem errorOf?_eq_some_iff {e : ε} : errorOf? x = some e ↔ x = .error e := by
  cases x <;> simp [errorOf?]

theorem errorOf?_eq_none_iff : errorOf? x = none ↔ ∃ a, x = .ok a := by
  cases x <;> simp [errorOf?]

theorem mapError_map {ε' : Type} (x : Except ε α) (f : α → β) (rename : ε → ε') :
    (x.map f).mapError rename = (x.mapError rename).map f := by
  cases x <;> rfl

/-- The results are both errors or both values, and what they hold is related. -/
inductive Matching {ε ε' α α' : Type} (E : ε → ε' → Prop) (R : α → α' → Prop) :
    Except ε α → Except ε' α' → Prop
  | error {e e'} (h : E e e') : Matching E R (.error e) (.error e')
  | ok {a a'} (h : R a a') : Matching E R (.ok a) (.ok a')

namespace Matching
variable {ε' α' β' : Type} {E : ε → ε' → Prop} {R : α → α' → Prop} {S : β → β' → Prop} {y : Except ε' α'}
  {g : α' → β'}

theorem refl {E : ε → ε → Prop} {R : α → α → Prop} (hE : ∀ e, E e e) (hR : ∀ a, R a a) (x : Except ε α) :
    Matching E R x x := by
  cases x with
  | error e => exact .error (hE e)
  | ok a => exact .ok (hR a)

theorem map (h : Matching E R x y) (hfg : ∀ a a', R a a' → S (f a) (g a')) :
    Matching E S (x.map f) (y.map g) := by
  cases h with
  | error h => exact .error h
  | ok h => exact .ok (hfg _ _ h)

theorem eq_ok_iff {x y : Except ε α} {E : ε → ε → Prop} (h : Matching E (· = ·) x y) {a : α} :
    x = .ok a ↔ y = .ok a := by
  cases h with
  | error _ => simp
  | ok h => rw [h]

theorem exists_error {e : ε} (h : Matching E R x y) (hx : x = .error e) : ∃ e', y = .error e' ∧ E e e' := by
  cases h with
  | error h =>
    cases hx
    exact ⟨_, rfl, h⟩
  | ok _ => cases hx

end Matching

end EntitySearch
