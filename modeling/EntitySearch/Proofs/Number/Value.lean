import EntitySearch.Proofs.Number.Magnitude
import Mathlib.Algebra.Order.Field.Power
import Mathlib.Algebra.Order.Field.Rat
import Mathlib.Tactic.NormNum
import Mathlib.Tactic.Ring

/-!
# The number that a double stands for

Doubles that are equal as numbers have the same `value`. Integers of at most fifty-three bits are doubles
themselves (`value_ofInt`), so that no two of them become the same double (`eq_of_numEq_ofInt`); beyond, rounding
may bring two together.
-/

namespace EntitySearch

namespace Binary64
variable {x y : Binary64} {n k e : Nat}

def absValue (x : Binary64) : ℚ := x.significand * 2 ^ x.scale

def value (x : Binary64) : ℚ := if x.isNegative then -x.absValue else x.absValue

theorem absValue_of_isZero (h : x.isZero) : x.absValue = 0 := by
  simp [absValue, significand_eq, isZero_iff.1 h]

theorem value_eq_of_numEq (h : x.numEq y) : x.value = y.value := by
  simp only [numEq, Bool.and_eq_true, Bool.or_eq_true, decide_eq_true_iff] at h
  obtain ⟨-, rfl | ⟨hx, hy⟩⟩ := h
  · rfl
  · simp [value, absValue_of_isZero hx, absValue_of_isZero hy]

theorem numEq_comm (x y : Binary64) : x.numEq y = y.numEq x := by
  simp only [numEq, eq_comm (a := x), Bool.and_comm]

theorem numEq_trans {z : Binary64} (hxy : x.numEq y) (hyz : y.numEq z) : x.numEq z := by
  simp only [numEq, Bool.and_eq_true, Bool.or_eq_true, decide_eq_true_iff] at hxy hyz ⊢
  obtain ⟨⟨hx, -⟩, hxy⟩ := hxy
  obtain ⟨⟨-, hz⟩, hyz⟩ := hyz
  refine ⟨⟨hx, hz⟩, ?_⟩
  obtain rfl | ⟨hx, hy⟩ := hxy
  · exact hyz
  · obtain rfl | ⟨-, hz⟩ := hyz
    · exact .inr ⟨hx, hy⟩
    · exact .inr ⟨hx, hz⟩

/-! ### Integers of at most fifty-three bits -/

theorem absValue_ofMagnitude (negative : Bool) (hk : 4503599627370496 ≤ k) (hk' : k < 9007199254740992)
    (he : e < 2046) : (ofMagnitude negative (e * 4503599627370496 + k)).absValue = k * 2 ^ ((e : ℤ) - 1074) := by
  have hlt : e * 4503599627370496 + k < 9223372036854775808 := by omega
  have hexp : (e * 4503599627370496 + k) / 4503599627370496 = e + 1 := by omega
  have hfrac : 4503599627370496 + (e * 4503599627370496 + k) % 4503599627370496 = k := by omega
  have hsignificand : (ofMagnitude negative (e * 4503599627370496 + k)).significand = k := by
    rw [significand_eq, magnitude_ofMagnitude negative hlt, hexp, if_neg (by omega)]
    exact hfrac
  have hscale : (ofMagnitude negative (e * 4503599627370496 + k)).scale = (e : ℤ) - 1074 := by
    rw [scale, exponentBits_eq, magnitude_ofMagnitude negative hlt, hexp, if_neg (by omega)]
    omega
  rw [absValue, hsignificand, hscale]

theorem divToEven_one (n : Nat) : divToEven n 1 = n := by
  simp [divToEven, Nat.mod_one]

theorem shifted_of_lt (h0 : n ≠ 0) (h : n < 9007199254740992) :
    n.log2 < 53 ∧ 4503599627370496 ≤ n * 2 ^ (52 - n.log2) ∧ n * 2 ^ (52 - n.log2) < 9007199254740992 := by
  have hlog : n.log2 < 53 := (Nat.log2_lt h0).2 h
  refine ⟨hlog, ?_, ?_⟩
  · calc 4503599627370496 = 2 ^ (n.log2 + (52 - n.log2)) := by rw [Nat.add_sub_of_le (by omega)]
      _ = 2 ^ n.log2 * 2 ^ (52 - n.log2) := Nat.pow_add ..
      _ ≤ n * 2 ^ (52 - n.log2) := Nat.mul_le_mul_right _ (Nat.log2_self_le h0)
  · calc n * 2 ^ (52 - n.log2) < 2 ^ (n.log2 + 1) * 2 ^ (52 - n.log2) :=
          Nat.mul_lt_mul_of_pos_right Nat.lt_log2_self (Nat.two_pow_pos _)
      _ = 2 ^ (n.log2 + 1 + (52 - n.log2)) := (Nat.pow_add ..).symm
      _ = 9007199254740992 := by rw [show n.log2 + 1 + (52 - n.log2) = 53 by omega]; rfl

theorem roundingScale_of_lt (h0 : n ≠ 0) (h : n < 9007199254740992) :
    roundingScale n 1 = (n.log2 : ℤ) - 52 := by
  obtain ⟨hlog, hlow, -⟩ := shifted_of_lt h0 h
  have hone : Nat.log2 1 = 0 := by decide
  have hpow : (-((n.log2 : ℤ) - (0 : ℕ) - 52)).toNat = 52 - n.log2 := by omega
  have hpow' : ((n.log2 : ℤ) - (0 : ℕ) - 52).toNat = 0 := by omega
  have hnot : ¬ n * Nat.pow 2 (52 - n.log2) < 1 * Nat.pow 2 0 * Nat.pow 2 52 := Nat.not_lt.2 hlow
  simp only [roundingScale, hone, scaleDown, hpow, hpow', if_neg hnot]
  omega

theorem ofRatio_one_of_lt (negative : Bool) (h0 : n ≠ 0) (h : n < 9007199254740992) :
    ofRatio negative n 1 =
      ofMagnitude negative ((n.log2 + 1022) * 4503599627370496 + n * 2 ^ (52 - n.log2)) := by
  obtain ⟨hlog, -, hhigh⟩ := shifted_of_lt h0 h
  have hdown : scaleDown n 1 ((n.log2 : ℤ) - 52) = (n * 2 ^ (52 - n.log2), 1) := by
    have hpow : (-((n.log2 : ℤ) - 52)).toNat = 52 - n.log2 := by omega
    have hpow' : ((n.log2 : ℤ) - 52).toNat = 0 := by omega
    simp only [scaleDown, hpow, hpow']
    rfl
  have hq : ((n.log2 : ℤ) - 52 + 1074).toNat = n.log2 + 1022 := by omega
  unfold ofRatio
  rw [if_neg h0, roundingScale_of_lt h0 h]
  simp only [hdown, hq, divToEven_one]
  congr 1
  refine Nat.min_eq_left ?_
  show (n.log2 + 1022) * 4503599627370496 + _ ≤ 2047 * 4503599627370496
  omega

theorem absValue_ofRatio_one (negative : Bool) (h : n ≤ 9007199254740992) :
    (ofRatio negative n 1).absValue = n ∧ (ofRatio negative n 1).isNegative = negative := by
  by_cases h0 : n = 0
  · subst h0
    exact ⟨absValue_of_isZero (by cases negative <;> decide), by cases negative <;> decide⟩
  rcases Nat.lt_or_eq_of_le h with h | rfl
  · obtain ⟨hlog, hlow, hhigh⟩ := shifted_of_lt h0 h
    rw [ofRatio_one_of_lt negative h0 h]
    refine ⟨?_, isNegative_ofMagnitude negative (by omega)⟩
    rw [absValue_ofMagnitude negative hlow hhigh (by omega)]
    have hexp : (((n.log2 + 1022 : ℕ) : ℤ) - 1074) = -((52 - n.log2 : ℕ) : ℤ) := by omega
    have hpos : (2 : ℚ) ^ (52 - n.log2) ≠ 0 := by positivity
    rw [hexp, zpow_neg, zpow_natCast, Nat.cast_mul, Nat.cast_pow, Nat.cast_ofNat, mul_assoc,
      mul_inv_cancel₀ hpos, mul_one]
  · have hbits : ofRatio negative 9007199254740992 1 =
        ofMagnitude negative (1075 * 4503599627370496 + 4503599627370496) := by
      cases negative <;> decide +kernel
    rw [hbits]
    refine ⟨?_, isNegative_ofMagnitude negative (by decide)⟩
    rw [absValue_ofMagnitude negative (by decide) (by decide) (by decide)]
    norm_num

/-- An integer of at most fifty-three bits is a double itself. -/
theorem value_ofInt {i : Int} (h : i.natAbs ≤ 9007199254740992) : (ofInt i).value = i := by
  obtain ⟨habs, hsign⟩ := absValue_ofRatio_one (decide (i < 0)) h
  rw [ofInt, value, habs, hsign]
  rcases lt_or_ge i 0 with hi | hi
  · rw [decide_eq_true hi, if_pos rfl, ← Int.cast_natCast, Int.ofNat_natAbs_of_nonpos hi.le]
    push_cast
    ring
  · rw [decide_eq_false (by omega), if_neg (by simp), ← Int.cast_natCast, Int.natAbs_of_nonneg hi]

theorem eq_of_numEq_ofInt {i j : Int} (hi : i.natAbs ≤ 9007199254740992) (hj : j.natAbs ≤ 9007199254740992)
    (h : (ofInt i).numEq (ofInt j)) : i = j := by
  have hvalue := value_eq_of_numEq h
  rw [value_ofInt hi, value_ofInt hj] at hvalue
  exact_mod_cast hvalue

/-- The next integer after `2 ^ 53` is rounded to it. -/
example : (ofInt 9007199254740993).numEq (ofInt 9007199254740992) := by decide +kernel

end Binary64

end EntitySearch
