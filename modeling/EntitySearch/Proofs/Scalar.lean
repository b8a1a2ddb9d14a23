import EntitySearch.Scalar

/-!
# Values and their types

`Scalar.ofJson?` only gives values of the type it is asked for, and `Scalar.toJson` is its inverse where
a value has a JSON form at all, which infinities and NaN have not (`Scalar.isFinite`). `Scalar.Literal` says
which JSON values there are of a type, and what they stand for.
-/

namespace EntitySearch
namespace Scalar

/-- Whether the value is neither an infinite double nor NaN. -/
def isFinite : Scalar → Bool
  | float x => x.isFinite
  | _ => true

variable {v : Scalar} {type : ScalarType} {json : Json}

theorem ofJson?_eq_null_iff : ofJson? type json = some .null ↔ json = .null := by
  cases json with
  | number n => cases type <;> simp [ofJson?]
  | _ => simp [ofJson?]

theorem type?_of_ofJson? (h : ofJson? type json = some v) (hv : v ≠ .null) : v.type? = some type := by
  cases json with
  | null => cases h; exact absurd rfl hv
  | bool b =>
    simp only [ofJson?, Option.ite_none_right_eq_some, Option.some.injEq] at h
    obtain ⟨rfl, rfl⟩ := h; rfl
  | number n =>
    cases type with
    | int64 => obtain ⟨i, -, rfl⟩ := Option.map_eq_some_iff.1 h; rfl
    | float64 => cases h; rfl
    | boolean | varchar => cases h
  | string s =>
    simp only [ofJson?, Option.ite_none_right_eq_some, Option.some.injEq] at h
    obtain ⟨rfl, rfl⟩ := h; rfl
  | array _ | object _ => cases h

theorem fits_iff (hv : v ≠ .null) : v.fits type ↔ v.type? = some type := by
  cases v <;> simp_all [fits, type?]

theorem toInt64?_ofInt64 (i : Int64) : (JsonNumber.ofInt64 i).toInt64? = some i := by
  have h : i.toInt < 0x8000000000000000 := by
    have := i.toInt_lt
    omega
  simp only [JsonNumber.ofInt64, JsonNumber.toInt64?, if_pos h, Int64.ofInt_toInt]

theorem toJson_of_not_isFinite (hv : ¬ v.isFinite) : v.toJson = .null := by
  cases v with
  | float x =>
    have hx : ¬ x.isFinite := hv
    exact dif_neg hx
  | _ => exact absurd rfl hv

/-- What is written is read back at its type, a value without a JSON form as `null`. -/
theorem ofJson?_toJson (h : v.type? = some type) :
    ofJson? type v.toJson = some (if v.isFinite then v else .null) := by
  by_cases hv : v.isFinite
  · rw [if_pos hv]
    cases v with
    | null => cases h
    | bool b => cases h; simp [toJson, ofJson?]
    | int i => cases h; simp [toJson, ofJson?, toInt64?_ofInt64]
    | float x =>
      cases h
      have hx : x.isFinite := hv
      simp [toJson, ofJson?, hx, JsonNumber.toBinary64]
    | string s => cases h; simp [toJson, ofJson?]
  · rw [if_neg hv, toJson_of_not_isFinite hv]
    rfl

/-- The JSON values of a type, apart from `null`, each with the value it has at the type. Nothing is
converted but integers in fields for doubles. -/
inductive Literal : ScalarType → Json → Scalar → Prop
  | bool {b} : Literal .boolean (.bool b) (.bool b)
  | int {n lower upper} (small : n < 0x8000000000000000) :
      Literal .int64 (.number (.int n lower upper)) (.int (.ofInt n))
  | integral {n lower upper} : Literal .float64 (.number (.int n lower upper)) (.float (.ofInt n))
  | fractional {x finite} : Literal .float64 (.number (.float x finite)) (.float x)
  | string {s} : Literal .varchar (.string s) (.string s)

theorem literal_iff : Literal type json v ↔ ofJson? type json = some v ∧ v ≠ .null := by
  constructor
  · intro h
    cases h with
    | int small => simp [ofJson?, JsonNumber.toInt64?, small]
    | _ => simp [ofJson?, JsonNumber.toBinary64]
  · rintro ⟨h, hv⟩
    cases json with
    | null =>
      cases h
      exact absurd rfl hv
    | bool b =>
      obtain ⟨rfl, rfl⟩ : type = .boolean ∧ Scalar.bool b = v := by simpa [ofJson?] using h
      exact .bool
    | number n =>
      cases type with
      | int64 =>
        obtain ⟨i, hi, rfl⟩ := Option.map_eq_some_iff.1 h
        cases n with
        | int n =>
          obtain ⟨small, rfl⟩ : n < 0x8000000000000000 ∧ Int64.ofInt n = i := by
            simpa [JsonNumber.toInt64?] using hi
          exact .int small
        | float x => cases hi
      | float64 =>
        cases h
        cases n with
        | int n => exact .integral
        | float x => exact .fractional
      | boolean | varchar => cases h
    | string s =>
      obtain ⟨rfl, rfl⟩ : type = .varchar ∧ Scalar.string s = v := by simpa [ofJson?] using h
      exact .string
    | array _ | object _ => cases h

theorem isSome_ofJson?_iff :
    (ofJson? type json).isSome ↔ json = .null ∨ ∃ v, Literal type json v := by
  have hnull : json = .null ↔ ofJson? type json = some .null := ofJson?_eq_null_iff.symm
  simp only [literal_iff, hnull]
  cases ofJson? type json with
  | none => simp
  | some v => by_cases hv : v = .null <;> simp [hv]

end Scalar
end EntitySearch
