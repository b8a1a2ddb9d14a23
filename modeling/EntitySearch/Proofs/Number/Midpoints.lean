import EntitySearch.Number.Shortest
import EntitySearch.Proofs.Number.Magnitude
import Mathlib.Algebra.Order.Field.Power
import Mathlib.Algebra.Order.Field.Rat
import Mathlib.Order.Monotone.Basic
import Mathlib.Tactic.NormNum
import Mathlib.Tactic.Ring
import Mathlib.Tactic.WLOG

/-!
# Which numbers round to a double

The numbers that round to a double lie between the two midpoints to its neighbours (`Neighbourhood.Contains`,
`Binary64.ReadsAs`). In units of `2 ^ -1076` all midpoints are natural numbers: `Binary64.midpoint m` is the one below
the double of magnitude `m`, and the one above is `midpoint (m + 1)`. They increase with the magnitude, and a midpoint
is given to the neighbour of even magnitude only, hence no number rounds to two doubles (`magnitude_eq_of_readsAs`).
-/

namespace EntitySearch

namespace Binary64

namespace Neighbourhood

/-- The number, in the units of the neighbourhood, rounds to its value. -/
def Contains (hood : Neighbourhood) (q : ℚ) : Prop :=
  if hood.closed then hood.lower ≤ q ∧ q ≤ hood.upper else hood.lower < q ∧ q < hood.upper

variable {hood : Neighbourhood} {p q r : ℚ}

theorem contains_of_lt (hl : hood.lower < q) (hu : q < hood.upper) : hood.Contains q := by
  unfold Contains
  split
  · exact ⟨hl.le, hu.le⟩
  · exact ⟨hl, hu⟩

theorem Contains.of_le (hp : hood.Contains p) (hr : hood.Contains r) (hpq : p ≤ q) (hqr : q ≤ r) :
    hood.Contains q := by
  unfold Contains at hp hr ⊢
  split at hp
  · next hc =>
    rw [if_pos hc] at hr ⊢
    exact ⟨hp.1.trans hpq, hqr.trans hr.2⟩
  · next hc =>
    rw [if_neg hc] at hr ⊢
    exact ⟨hp.1.trans_le hpq, hqr.trans_lt hr.2⟩

end Neighbourhood

/-- The number without sign rounds to the double, up to its sign. -/
def ReadsAs (q : ℚ) (x : Binary64) : Prop := x.neighbourhood.Contains (q / 2 ^ (x.scale - 2))

variable {x y : Binary64} {e f m n : Nat} {q : ℚ}

/-- The midpoint below the double with these exponent bits and this fraction, in units of `2 ^ -1076`. -/
def midpointAt (e f : Nat) : Nat :=
  (4 * ((if e = 0 then 0 else 4503599627370496) + f) - if f = 0 ∧ 1 < e then 1 else 2) * 2 ^ (e - 1)

/-- The midpoint below the double of this magnitude, in units of `2 ^ -1076`. -/
def midpoint (m : Nat) : Nat := midpointAt (m / 4503599627370496) (m % 4503599627370496)

theorem midpointAt_succ (e f : Nat) :
    midpointAt e (f + 1) = (4 * ((if e = 0 then 0 else 4503599627370496) + f) + 2) * 2 ^ (e - 1) := by
  have hf : ¬ (f + 1 = 0 ∧ 1 < e) := fun h => Nat.succ_ne_zero f h.1
  rw [midpointAt, if_neg hf]
  congr 1

/-- The last double of an exponent is followed by one with twice the distance to its upper neighbour. -/
theorem midpointAt_zero_succ : midpointAt (e + 1) 0 =
    (4 * ((if e = 0 then 0 else 4503599627370496) + 4503599627370495) + 2) * 2 ^ (e - 1) := by
  cases e with
  | zero => rfl
  | succ e =>
    have hsub : 0 = 0 ∧ 1 < e + 1 + 1 := ⟨rfl, by omega⟩
    rw [midpointAt, if_neg (Nat.succ_ne_zero _), if_pos hsub, if_neg (Nat.succ_ne_zero _)]
    simp only [Nat.add_one_sub_one, Nat.pow_succ]
    omega

theorem midpoint_succ (m : Nat) :
    midpoint (m + 1) = (4 * ((if m / 4503599627370496 = 0 then 0 else 4503599627370496) +
      m % 4503599627370496) + 2) * 2 ^ (m / 4503599627370496 - 1) := by
  unfold midpoint
  by_cases h : m % 4503599627370496 + 1 < 4503599627370496
  · have hexp : (m + 1) / 4503599627370496 = m / 4503599627370496 := by omega
    have hfrac : (m + 1) % 4503599627370496 = m % 4503599627370496 + 1 := by omega
    rw [hexp, hfrac, midpointAt_succ]
  · have hexp : (m + 1) / 4503599627370496 = m / 4503599627370496 + 1 := by omega
    have hfrac : (m + 1) % 4503599627370496 = 0 := by omega
    have hlast : m % 4503599627370496 = 4503599627370495 := by omega
    rw [hexp, hfrac, hlast, midpointAt_zero_succ]

theorem midpoint_lt_succ (m : Nat) : midpoint m < midpoint (m + 1) := by
  rw [midpoint_succ]
  refine Nat.mul_lt_mul_of_pos_right ?_ (Nat.two_pow_pos _)
  omega

theorem midpoint_strictMono : StrictMono midpoint := strictMono_nat_of_lt_succ midpoint_lt_succ

theorem lower_mul_eq (x : Binary64) :
    x.neighbourhood.lower * 2 ^ (x.magnitude / 4503599627370496 - 1) = midpoint x.magnitude := by
  rw [midpoint, midpointAt, neighbourhood, significand_eq, exponentBits_eq, fraction_eq]

theorem upper_mul_eq (x : Binary64) :
    x.neighbourhood.upper * 2 ^ (x.magnitude / 4503599627370496 - 1) = midpoint (x.magnitude + 1) := by
  rw [midpoint_succ, neighbourhood, significand_eq]

theorem closed_eq (x : Binary64) : x.neighbourhood.closed = decide (x.magnitude % 2 = 0) := by
  rw [neighbourhood, significand_eq, decide_eq_decide]
  split <;> omega

theorem readsAs_iff : ReadsAs q x ↔
    if x.magnitude % 2 = 0 then
      midpoint x.magnitude ≤ q * 2 ^ 1076 ∧ q * 2 ^ 1076 ≤ midpoint (x.magnitude + 1)
    else midpoint x.magnitude < q * 2 ^ 1076 ∧ q * 2 ^ 1076 < midpoint (x.magnitude + 1) := by
  have hpos : (0 : ℚ) < 2 ^ (x.magnitude / 4503599627370496 - 1) := by positivity
  have hunit : q / 2 ^ (x.scale - 2) = q * 2 ^ 1076 / 2 ^ (x.magnitude / 4503599627370496 - 1) := by
    have hscale : x.scale - 2 = ((x.magnitude / 4503599627370496 - 1 : ℕ) : ℤ) - (1076 : ℕ) := by
      rw [scale, exponentBits_eq]
      split <;> omega
    rw [hscale, zpow_sub₀ two_ne_zero, zpow_natCast, zpow_natCast, div_div_eq_mul_div]
  have hlower : (x.neighbourhood.lower : ℚ) * 2 ^ (x.magnitude / 4503599627370496 - 1) = midpoint x.magnitude :=
    mod_cast congrArg Nat.cast (lower_mul_eq x)
  have hupper : (x.neighbourhood.upper : ℚ) * 2 ^ (x.magnitude / 4503599627370496 - 1) =
      midpoint (x.magnitude + 1) :=
    mod_cast congrArg Nat.cast (upper_mul_eq x)
  rw [ReadsAs, Neighbourhood.Contains, hunit, closed_eq]
  simp only [le_div_iff₀ hpos, lt_div_iff₀ hpos, div_le_iff₀ hpos, div_lt_iff₀ hpos, hlower, hupper,
    decide_eq_true_iff]

theorem le_of_readsAs (h : ReadsAs q x) :
    midpoint x.magnitude ≤ q * 2 ^ 1076 ∧ q * 2 ^ 1076 ≤ midpoint (x.magnitude + 1) := by
  rw [readsAs_iff] at h
  split at h
  · exact h
  · exact ⟨h.1.le, h.2.le⟩

/-- No number rounds to doubles of two magnitudes. Only a midpoint between neighbours could, and of these only
one is even. -/
theorem magnitude_eq_of_readsAs (hx : ReadsAs q x) (hy : ReadsAs q y) : x.magnitude = y.magnitude := by
  wlog hlt : x.magnitude < y.magnitude generalizing x y
  · obtain h | h := Nat.lt_or_eq_of_le (Nat.not_lt.1 hlt)
    · exact (this hy hx h).symm
    · exact h.symm
  exfalso
  have hle : (midpoint (x.magnitude + 1) : ℚ) ≤ midpoint y.magnitude :=
    mod_cast midpoint_strictMono.monotone hlt
  have hbelow := (le_of_readsAs hx).2
  have habove := (le_of_readsAs hy).1
  have hnext : x.magnitude + 1 = y.magnitude :=
    midpoint_strictMono.injective (mod_cast hle.antisymm (habove.trans hbelow))
  rw [readsAs_iff] at hx hy
  split at hx
  · rw [if_neg (by omega)] at hy
    exact absurd (hy.1.trans_le hbelow) hle.not_gt
  · exact absurd (habove.trans_lt hx.2) hle.not_gt

end Binary64

end EntitySearch
