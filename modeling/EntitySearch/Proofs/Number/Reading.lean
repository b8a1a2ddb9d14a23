import EntitySearch.Json.NumberReader
import EntitySearch.Proofs.Number.Rounding
import EntitySearch.Proofs.Number.Value
import EntitySearch.Proofs.Text.Runs

/-!
# Short decimals are read as the nearest double

The reader rounds the digits, the power of ten, and their product or quotient. With at most `2 ^ 53` in the digits and
a power of at most `10 ^ 22` the first two are exact, so that the exact value is rounded once
(`Numeral.Short.toBinary64_eq_ofRatio`). A double that is written as such a decimal is therefore read back
(`Numeral.Short.toBinary64_eq_of_shortest`).
-/

namespace EntitySearch

namespace Binary64
variable {x y : Binary64} {num den n k : Nat}

theorem mul_eq_ofRatio (hd : 0 < den) (h : x.absValue * y.absValue = num / den) :
    x.mul y = ofRatio (x.isNegative != y.isNegative) num den := by
  refine ofRatio_congr _ (Nat.two_pow_pos _) hd ?_
  rw [← h, absValue, absValue, mul_mul_mul_comm, ← zpow_add₀ two_ne_zero, zpow_eq_pow_div_pow two_ne_zero]
  show ((x.significand * y.significand * 2 ^ (x.scale + y.scale).toNat : ℕ) : ℚ) /
    (2 ^ (-(x.scale + y.scale)).toNat : ℕ) = _
  push_cast
  rw [mul_div_assoc]

theorem div_eq_ofRatio (hd : 0 < den) (hy : y.absValue ≠ 0) (h : x.absValue / y.absValue = num / den) :
    x.div y = ofRatio (x.isNegative != y.isNegative) num den := by
  have hpos : 0 < y.significand := by
    refine Nat.pos_of_ne_zero fun h0 => hy ?_
    rw [absValue, h0, Nat.cast_zero, zero_mul]
  refine ofRatio_congr _ (Nat.mul_pos hpos (Nat.two_pow_pos _)) hd ?_
  rw [← h, absValue, absValue, mul_div_mul_comm, ← zpow_sub₀ two_ne_zero, zpow_eq_pow_div_pow two_ne_zero]
  show ((x.significand * 2 ^ (x.scale - y.scale).toNat : ℕ) : ℚ) /
    (y.significand * 2 ^ (-(x.scale - y.scale)).toNat : ℕ) = _
  push_cast
  rw [div_mul_div_comm]

/-- The powers of ten that are doubles themselves. -/
theorem absValue_powerOfTen (h : k ≤ 22) :
    (powerOfTen k).absValue = 10 ^ k ∧ (powerOfTen k).isNegative = false := by
  have hall : ∀ k < 23, ((powerOfTen k).significand * 2 ^ (powerOfTen k).scale.toNat =
      10 ^ k * 2 ^ (-(powerOfTen k).scale).toNat) ∧ (powerOfTen k).isNegative = false := by decide +kernel
  obtain ⟨habs, hsign⟩ := hall k (by omega)
  refine ⟨?_, hsign⟩
  rw [absValue, zpow_eq_pow_div_pow two_ne_zero, ← mul_div_assoc, div_eq_iff (by positivity)]
  exact_mod_cast habs

theorem scaleByTen_eq_ofRatio (h0 : n ≠ 0) (hx : x.absValue = n) {exponent : ℤ} (hexp : exponent.natAbs ≤ 22) :
    x.scaleByTen exponent =
      ofRatio x.isNegative (n * 10 ^ exponent.toNat) (10 ^ (-exponent).toNat) := by
  have hzero : ¬ x.isZero := fun hzero => h0 (mod_cast hx.symm.trans (absValue_of_isZero hzero))
  rw [scaleByTen, if_neg hzero, if_neg (by omega)]
  split
  · obtain ⟨hpow, hsign⟩ := absValue_powerOfTen (k := exponent.toNat) (by omega)
    have hnone : (-exponent).toNat = 0 := by omega
    have hvalue : x.absValue * (powerOfTen exponent.toNat).absValue = (n * 10 ^ exponent.toNat : ℕ) / (1 : ℕ) := by
      rw [hx, hpow]
      push_cast
      rw [div_one]
    rw [hnone, Nat.pow_zero, mul_eq_ofRatio Nat.one_pos hvalue, hsign, Bool.bne_false]
  · obtain ⟨hpow, hsign⟩ := absValue_powerOfTen (k := (-exponent).toNat) (by omega)
    have hnone : exponent.toNat = 0 := by omega
    have hpos : (powerOfTen (-exponent).toNat).absValue ≠ 0 := by
      rw [hpow]
      positivity
    have hvalue : x.absValue / (powerOfTen (-exponent).toNat).absValue = (n : ℕ) / (10 ^ (-exponent).toNat : ℕ) := by
      rw [hx, hpow]
      push_cast
      rfl
    rw [if_pos (by omega), hnone, Nat.pow_zero, Nat.mul_one, div_eq_ofRatio (by positivity) hpos hvalue, hsign,
      Bool.bne_false]

end Binary64

namespace Numeral
variable {n : Numeral}

theorem le_ofDigitChars (ds : List Char) (n : Nat) : n ≤ Nat.ofDigitChars 10 ds n := by
  induction ds generalizing n with
  | nil => exact Nat.le_refl n
  | cons d rest ih =>
    rw [Nat.ofDigitChars_cons]
    have hle : n ≤ 10 * n + (d.toNat - '0'.toNat) := by omega
    exact hle.trans (ih _)

theorem takeWord_eq (ds : List Char) {n : Nat} (h : Nat.ofDigitChars 10 ds n < 0x10000000000000000) :
    takeWord n ds = (Nat.ofDigitChars 10 ds n, []) := by
  induction ds generalizing n with
  | nil => rfl
  | cons d rest ih =>
    rw [Nat.ofDigitChars_cons] at h ⊢
    rw [takeWord, Nat.mul_comm n, if_pos (Nat.lt_of_le_of_lt (le_ofDigitChars rest _) h)]
    exact ih h

theorem kept_of_lt (h : n.significand < 0x10000000000000000) :
    n.kept = (n.significand, n.exponent - n.fraction.length) := by
  rw [significand, natOfChars_eq, Nat.ofDigitChars_append] at h
  rw [kept, takeWord_eq n.whole (Nat.lt_of_le_of_lt (le_ofDigitChars n.fraction _) h)]
  dsimp only
  rw [takeWord_eq n.fraction h, significand, natOfChars_eq, Nat.ofDigitChars_append]
  simp

/-- The number without its sign. -/
def value (n : Numeral) : ℚ := n.significand * 10 ^ (n.exponent - n.fraction.length)

/-- At most `2 ^ 53` in the digits, and at most twenty-two places to the left or to the right of them. -/
structure Short (n : Numeral) : Prop where
  digits : n.significand ≤ 2 ^ 53
  word : n.exponent.natAbs ≤ 0x7fffffff
  places : (n.exponent - n.fraction.length).natAbs ≤ 22

theorem Short.toBinary64_eq_ofRatio (h : n.Short) :
    n.toBinary64 = .ofRatio n.negative (n.significand * 10 ^ (n.exponent - n.fraction.length).toNat)
      (10 ^ (-(n.exponent - n.fraction.length)).toNat) := by
  obtain ⟨hdigits, hword, hplaces⟩ := h
  rw [toBinary64, kept_of_lt (by omega)]
  dsimp only
  by_cases h0 : n.significand = 0
  · rw [if_pos (.inl h0), h0, Nat.zero_mul, Binary64.ofRatio, if_pos rfl]
  · obtain ⟨habs, hsign⟩ := Binary64.absValue_ofRatio_one n.negative hdigits
    rw [if_neg (by omega), if_neg (by omega), Binary64.scaleByTen_eq_ofRatio h0 habs hplaces, hsign]

theorem value_eq_div (n : Numeral) :
    n.value = (n.significand * 10 ^ (n.exponent - n.fraction.length).toNat : ℕ) /
      (10 ^ (-(n.exponent - n.fraction.length)).toNat : ℕ) := by
  rw [value, Binary64.zpow_eq_pow_div_pow (by norm_num)]
  push_cast
  rw [mul_div_assoc]

theorem Short.value_lt (h : n.Short) : n.value < 2 ^ (1023 : ℤ) := by
  have hdigits : (n.significand : ℚ) ≤ 2 ^ 53 := mod_cast h.digits
  have hpower : (10 : ℚ) ^ (n.exponent - n.fraction.length) ≤ 10 ^ (22 : ℤ) :=
    zpow_le_zpow_right₀ (by norm_num) (by have := h.places; omega)
  calc n.value ≤ 2 ^ 53 * 10 ^ (22 : ℤ) := mul_le_mul hdigits hpower (by positivity) (by positivity)
    _ < 2 ^ (127 : ℤ) := by norm_num
    _ ≤ 2 ^ (1023 : ℤ) := zpow_le_zpow_right₀ one_le_two (by decide)

/-- A short decimal is read, and as the double to which it rounds. -/
theorem Short.readsAs_toBinary64 (h : n.Short) :
    n.toBinary64.isFinite ∧ n.toBinary64.isNegative = n.negative ∧ Binary64.ReadsAs n.value n.toBinary64 := by
  have hpos : 0 < 10 ^ (-(n.exponent - n.fraction.length)).toNat := Nat.pow_pos (by decide)
  have hfinite : n.toBinary64.isFinite := by
    rw [h.toBinary64_eq_ofRatio]
    exact Binary64.isFinite_ofRatio _ hpos (n.value_eq_div ▸ h.value_lt)
  refine ⟨hfinite, ?_, ?_⟩
  · rw [h.toBinary64_eq_ofRatio]
    exact Binary64.isNegative_ofRatio ..
  · rw [h.toBinary64_eq_ofRatio] at hfinite ⊢
    rw [value_eq_div]
    exact Binary64.readsAs_ofRatio _ hpos hfinite

/-- A double with a short decimal is read back from it, however this is written. -/
theorem Short.toBinary64_eq_of_shortest {x : Binary64} {tie : Tie} (h : n.Short) (h0 : x.isZero = false)
    (hsign : n.negative = x.isNegative) (hvalue : n.value = (x.shortest tie).value) : n.toBinary64 = x := by
  obtain ⟨-, hnegative, hreads⟩ := h.readsAs_toBinary64
  refine Binary64.eq_of_magnitude_eq (hnegative.trans hsign) (Binary64.magnitude_eq_of_readsAs hreads ?_)
  rw [hvalue]
  exact Binary64.readsAs_shortest tie h0

end Numeral

end EntitySearch
