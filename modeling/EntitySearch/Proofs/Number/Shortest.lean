import EntitySearch.Proofs.Number.Midpoints
import Mathlib.Algebra.Order.Floor.Semiring
import Mathlib.Data.Rat.Floor
import Mathlib.Tactic.Linarith

/-!
# The shortest decimal rounds to the double

The decimal that `Binary64.shortest` finds lies in the neighbourhood of the double (`readsAs_shortest`). A
candidate is taken only if it does, so what is to be shown is that one is taken at all: with seventeen digits
the candidates are so close to each other that there are some between the midpoints.
-/

namespace EntitySearch

namespace Decimal

def value (d : Decimal) : ℚ := d.coefficient * 10 ^ d.exponent

theorem value_stripZeros (fuel : Nat) (d : Decimal) : (d.stripZeros fuel).value = d.value := by
  induction fuel generalizing d with
  | zero => rfl
  | succ fuel ih =>
    rw [stripZeros]
    split
    · next h =>
      have hten : (d.coefficient : ℚ) = (d.coefficient / 10 : ℕ) * 10 := by
        exact_mod_cast (Nat.div_mul_cancel (Nat.dvd_of_mod_eq_zero h)).symm
      rw [ih, value, value, zpow_add_one₀ (by norm_num), hten]
      ring
    · rfl

end Decimal

namespace Binary64
variable {x : Binary64} {hood : Neighbourhood} {tie : Tie} {s k : Int} {d : Decimal} {a b c n num den : Nat}

/-! ### Candidates -/

theorem zpow_eq_pow_div_pow {r : ℚ} (hr : r ≠ 0) (i : Int) : r ^ i = r ^ i.toNat / r ^ (-i).toNat := by
  rw [← zpow_natCast, ← zpow_natCast, ← zpow_sub₀ hr]
  congr 1
  omega

theorem zpow_div_zpow_eq (s k : Int) : (10 : ℚ) ^ k / 2 ^ s =
    (2 ^ (-s).toNat * 10 ^ k.toNat : ℕ) / (2 ^ s.toNat * 10 ^ (-k).toNat : ℕ) := by
  rw [zpow_eq_pow_div_pow (by norm_num) k, zpow_eq_pow_div_pow two_ne_zero s, div_div_div_eq]
  push_cast
  ring

theorem value_div_eq (hunit : (10 : ℚ) ^ k / 2 ^ s = b / a) : Decimal.value ⟨c, k⟩ / 2 ^ s = c * b / a := by
  rw [Decimal.value, mul_div_assoc, hunit, mul_div_assoc]

theorem value_div_le (h : c ≤ n) : Decimal.value ⟨c, k⟩ / 2 ^ s ≤ Decimal.value ⟨n, k⟩ / 2 ^ s := by
  have hcast : (c : ℚ) ≤ n := mod_cast h
  simp only [Decimal.value]
  gcongr

theorem Neighbourhood.contains_value_iff (ha : 0 < a) (hunit : (10 : ℚ) ^ k / 2 ^ s = b / a) :
    hood.Contains (Decimal.value ⟨c, k⟩ / 2 ^ s) ↔
      (if hood.closed then hood.lower * a ≤ c * b && c * b ≤ hood.upper * a
        else hood.lower * a < c * b && c * b < hood.upper * a) = true := by
  have ha' : (0 : ℚ) < a := mod_cast ha
  rw [value_div_eq hunit, Contains, le_div_iff₀ ha', lt_div_iff₀ ha', div_le_iff₀ ha', div_lt_iff₀ ha']
  split <;> simp only [Bool.and_eq_true, decide_eq_true_iff] <;> norm_cast

theorem contains_of_candidate? (h : candidate? tie hood s k = some d) : hood.Contains (d.value / 2 ^ s) := by
  unfold candidate? at h
  extract_lets a b low readsBack twiceRest highNearer at h
  have ha : 0 < a := Nat.mul_pos (Nat.two_pow_pos _) (Nat.pow_pos (by decide))
  have hread (c : Nat) : readsBack c ↔ hood.Contains (Decimal.value ⟨c, k⟩ / 2 ^ s) :=
    (Neighbourhood.contains_value_iff ha (zpow_div_zpow_eq s k)).symm
  clear_value readsBack highNearer
  split_ifs at h with hboth hnear hlow hhigh
  · cases h
    exact (hread _).1 (Bool.and_eq_true_iff.1 hboth).2
  · cases h
    exact (hread _).1 (Bool.and_eq_true_iff.1 hboth).1
  · cases h
    exact (hread _).1 hlow
  · cases h
    exact (hread _).1 hhigh

/-- A multiple of `10 ^ k` in the neighbourhood is enough: then one of the two next to the value is in it, too. -/
theorem isSome_candidate? (hvalue : hood.Contains hood.value)
    (hc : hood.Contains (Decimal.value ⟨c, k⟩ / 2 ^ s)) : (candidate? tie hood s k).isSome := by
  unfold candidate?
  extract_lets a b low readsBack twiceRest highNearer
  have ha : 0 < a := Nat.mul_pos (Nat.two_pow_pos _) (Nat.pow_pos (by decide))
  have hb : 0 < b := Nat.mul_pos (Nat.two_pow_pos _) (Nat.pow_pos (by decide))
  have hread (c : Nat) : readsBack c ↔ hood.Contains (Decimal.value ⟨c, k⟩ / 2 ^ s) :=
    (Neighbourhood.contains_value_iff ha (zpow_div_zpow_eq s k)).symm
  have ha' : (0 : ℚ) < a := mod_cast ha
  have hunit : (10 : ℚ) ^ k / 2 ^ s = b / a := zpow_div_zpow_eq s k
  have hfloor : Decimal.value ⟨low, k⟩ / 2 ^ s ≤ hood.value := by
    have hle : low * b ≤ hood.value * a := Nat.div_mul_le_self _ _
    rw [value_div_eq hunit, div_le_iff₀ ha']
    exact_mod_cast hle
  have hceil : hood.value ≤ Decimal.value ⟨low + 1, k⟩ / 2 ^ s := by
    have hlt : hood.value * a < (low + 1) * b := Nat.lt_mul_of_div_lt (Nat.lt_succ_self low) hb
    rw [value_div_eq hunit, le_div_iff₀ ha']
    exact_mod_cast hlt.le
  have hsome : readsBack low ∨ readsBack (low + 1) := by
    rw [hread, hread]
    obtain h | h := Nat.lt_or_ge low c
    · exact .inr (hvalue.of_le hc hceil (value_div_le h))
    · exact .inl (hc.of_le hvalue (value_div_le h) hfloor)
  clear_value readsBack highNearer
  split_ifs with hboth hnear hlow hhigh
  · rfl
  · rfl
  · rfl
  · rfl
  · exact absurd hsome (not_or.2 ⟨hlow, hhigh⟩)

/-! ### Seventeen digits -/

theorem digitCount_pos (n : Nat) : 0 < digitCount n := Nat.length_toDigits_pos

theorem lt_pow_digitCount (n : Nat) : n < 10 ^ digitCount n :=
  (Nat.length_toDigits_le_iff (by decide) (digitCount_pos n)).1 le_rfl

theorem pow_digitCount_le (h : 0 < n) : 10 ^ (digitCount n - 1) ≤ n := by
  obtain hone | hmore := Nat.eq_or_lt_of_le (digitCount_pos n)
  · rw [← hone]
    exact h
  · by_contra! hlt
    have hle : digitCount n ≤ digitCount n - 1 :=
      (Nat.length_toDigits_le_iff (by decide) (Nat.sub_pos_of_lt hmore)).2 hlt
    omega

theorem zpow_leadingPlace_le (hnum : 0 < num) (hden : 0 < den) :
    (10 : ℚ) ^ (leadingPlace num den - 1) ≤ num / den := by
  have hnum' : (0 : ℚ) < num := mod_cast hnum
  have hden' : (0 : ℚ) < den := mod_cast hden
  unfold leadingPlace
  split
  · next h =>
    have hpow : 10 ^ (digitCount (num / den) - 1) ≤ num / den := pow_digitCount_le (Nat.div_pos h hden)
    have hexp : (digitCount (num / den) : Int) - 1 = (digitCount (num / den) - 1 : ℕ) := by
      have := digitCount_pos (num / den)
      omega
    rw [hexp, zpow_natCast, le_div_iff₀ hden']
    exact_mod_cast (Nat.le_div_iff_mul_le hden).1 hpow
  · next h =>
    have hexp : 1 - (digitCount ((den + num - 1) / num - 1) : Int) - 1 =
        -(digitCount ((den + num - 1) / num - 1) : ℕ) := by omega
    have hpow : (den + num - 1) / num ≤ 10 ^ digitCount ((den + num - 1) / num - 1) := by
      have := lt_pow_digitCount ((den + num - 1) / num - 1)
      omega
    have hle : den ≤ 10 ^ digitCount ((den + num - 1) / num - 1) * num := by
      have hceil : den ≤ (den + num - 1) / num * num := by
        have := Nat.lt_div_mul_add hnum (a := den + num - 1)
        omega
      exact hceil.trans (Nat.mul_le_mul_right _ hpow)
    rw [hexp, zpow_neg, zpow_natCast, le_div_iff₀ hden', inv_mul_le_iff₀ (by positivity)]
    exact_mod_cast hle

/-- In a neighbourhood wider than their distance there is one of the multiples of a number. -/
theorem Neighbourhood.exists_contains_mul {ρ : ℚ} (hρ : 0 < ρ) (hwide : hood.lower + ρ < hood.upper) :
    ∃ c : Nat, hood.Contains (c * ρ) := by
  refine ⟨⌊hood.lower / ρ⌋₊ + 1, contains_of_lt ?_ (lt_of_le_of_lt ?_ hwide)⟩
  · rw [← div_lt_iff₀ hρ]
    exact_mod_cast Nat.lt_floor_add_one (hood.lower / ρ : ℚ)
  · have hfloor : (⌊(hood.lower / ρ : ℚ)⌋₊ : ℚ) ≤ hood.lower / ρ := Nat.floor_le (by positivity)
    rw [le_div_iff₀ hρ] at hfloor
    push_cast
    linarith

theorem value_neighbourhood_pos (h0 : x.isZero = false) : 0 < x.neighbourhood.value := by
  have hmagnitude : x.magnitude ≠ 0 := fun h => by simp [isZero_iff.2 h] at h0
  show 0 < 4 * x.significand
  rw [significand_eq]
  split <;> omega

/-- Halves of `10 ^ -16` of the value, on both sides of it, are less than the neighbourhood has. -/
theorem width_neighbourhood (x : Binary64) :
    x.neighbourhood.value + 10 ^ 16 * x.neighbourhood.lower < 10 ^ 16 * x.neighbourhood.upper := by
  have hwidth : 4 * x.significand + 10 ^ 16 * (4 * x.significand -
      if x.magnitude % 4503599627370496 = 0 ∧ 1 < x.magnitude / 4503599627370496 then 1 else 2) <
      10 ^ 16 * (4 * x.significand + 2) := by
    have hsignificand := significand_eq x
    split at hsignificand <;> split <;> omega
  rw [neighbourhood, exponentBits_eq, fraction_eq]
  exact hwidth

theorem contains_value (h0 : x.isZero = false) : x.neighbourhood.Contains x.neighbourhood.value := by
  have hpos : 0 < x.significand := Nat.pos_of_mul_pos_left (value_neighbourhood_pos h0)
  have hlower : x.neighbourhood.lower < x.neighbourhood.value := by
    show 4 * x.significand - _ < 4 * x.significand
    split <;> omega
  have hupper : x.neighbourhood.value < x.neighbourhood.upper := by
    show 4 * x.significand < 4 * x.significand + 2
    omega
  exact Neighbourhood.contains_of_lt (mod_cast hlower) (mod_cast hupper)

/-- The place of the leading digit, as `shortest` determines it. -/
def place (x : Binary64) : Int :=
  leadingPlace (x.neighbourhood.value * Nat.pow 2 (x.scale - 2).toNat) (Nat.pow 2 (-(x.scale - 2)).toNat)

theorem zpow_place_le (h0 : x.isZero = false) :
    (10 : ℚ) ^ (x.place - 1) ≤ x.neighbourhood.value * 2 ^ (x.scale - 2) := by
  refine (zpow_leadingPlace_le (Nat.mul_pos (value_neighbourhood_pos h0) (Nat.two_pow_pos _))
    (Nat.two_pow_pos _)).trans_eq ?_
  rw [zpow_eq_pow_div_pow two_ne_zero, ← mul_div_assoc]
  push_cast
  rfl

/-- Between the midpoints there is a decimal of seventeen digits. -/
theorem exists_contains_seventeenth (h0 : x.isZero = false) :
    ∃ c : Nat, x.neighbourhood.Contains (Decimal.value ⟨c, x.place - 17⟩ / 2 ^ (x.scale - 2)) := by
  have hunit : (0 : ℚ) < 10 ^ (x.place - 17) / 2 ^ (x.scale - 2) := by positivity
  have hsmall : 10 ^ 16 * (10 ^ (x.place - 17) / 2 ^ (x.scale - 2) : ℚ) ≤ x.neighbourhood.value := by
    have hexp : (10 : ℚ) ^ 16 * 10 ^ (x.place - 17) = 10 ^ (x.place - 1) := by
      rw [← zpow_natCast, ← zpow_add₀ (by norm_num)]
      congr 1
      omega
    rw [← mul_div_assoc, hexp, div_le_iff₀ (by positivity)]
    exact zpow_place_le h0
  have hwidth : (x.neighbourhood.value + 10 ^ 16 * x.neighbourhood.lower : ℚ) <
      10 ^ 16 * x.neighbourhood.upper := mod_cast width_neighbourhood x
  have hwide : x.neighbourhood.lower + (10 ^ (x.place - 17) / 2 ^ (x.scale - 2) : ℚ) < x.neighbourhood.upper := by
    linarith
  obtain ⟨c, hc⟩ := Neighbourhood.exists_contains_mul hunit hwide
  refine ⟨c, ?_⟩
  rw [Decimal.value, mul_div_assoc]
  exact hc

theorem readsAs_shortest (tie : Tie) (h0 : x.isZero = false) : ReadsAs (x.shortest tie).value x := by
  obtain ⟨c, hc⟩ := exists_contains_seventeenth h0
  have hfound : ((List.range 17).findSome? fun n =>
      candidate? tie x.neighbourhood (x.scale - 2) (x.place - (n + 1 : Nat))).isSome :=
    List.findSome?_isSome_iff.2 ⟨16, by decide, isSome_candidate? (contains_value h0) hc⟩
  obtain ⟨d, hd⟩ := Option.isSome_iff_exists.1 hfound
  have hshortest : x.shortest tie = d.stripZeros 17 := by
    show (Option.getD ((List.range 17).findSome? fun n =>
      candidate? tie x.neighbourhood (x.scale - 2) (x.place - (n + 1 : Nat))) ⟨0, 0⟩).stripZeros 17 = _
    rw [hd, Option.getD_some]
  obtain ⟨n, -, hn⟩ := List.exists_of_findSome?_eq_some hd
  rw [hshortest, ReadsAs, Decimal.value_stripZeros]
  exact contains_of_candidate? hn

end Binary64

end EntitySearch
