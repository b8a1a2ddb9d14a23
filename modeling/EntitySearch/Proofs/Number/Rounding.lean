import EntitySearch.Proofs.Number.Shortest
import Mathlib.Data.Int.Log

/-!
# Rounding a quotient

`Binary64.ofRatio` gives the double to which a quotient rounds (`readsAs_ofRatio`), a subnormal one and one that is
carried to the next power of two included. It depends on the value of the quotient only (`ofRatio_congr`): the scale
is the binary logarithm of the value (`roundingScale_eq`).
-/

namespace EntitySearch

namespace Binary64
variable {num den num' den' e k : Nat} {q : ℤ}

theorem divToEven_mul_right (num den : Nat) {c : Nat} (hc : 0 < c) :
    divToEven (num * c) (den * c) = divToEven num den := by
  have hlow : 2 * (num % den * c) < den * c ↔ 2 * (num % den) < den := by
    rw [← Nat.mul_assoc, Nat.mul_lt_mul_right hc]
  have hhigh : den * c < 2 * (num % den * c) ↔ den < 2 * (num % den) := by
    rw [← Nat.mul_assoc, Nat.mul_lt_mul_right hc]
  simp only [divToEven, Nat.mul_div_mul_right _ _ hc, Nat.mul_mod_mul_right, hlow, hhigh]

theorem divToEven_congr (hd : 0 < den) (hd' : 0 < den') (h : (num : ℚ) / den = num' / den') :
    divToEven num den = divToEven num' den' := by
  have hcross : num * den' = num' * den := by
    rw [div_eq_div_iff (by positivity) (by positivity)] at h
    exact_mod_cast h
  rw [← divToEven_mul_right num den hd', hcross, Nat.mul_comm den, divToEven_mul_right num' den' hd]

theorem scaleDown_den_pos (num : Nat) (hd : 0 < den) (q : ℤ) : 0 < (scaleDown num den q).2 :=
  Nat.mul_pos hd (Nat.two_pow_pos _)

theorem scaleDown_div (num den : Nat) (q : ℤ) :
    ((scaleDown num den q).1 : ℚ) / (scaleDown num den q).2 = num / den / 2 ^ q := by
  show ((num * 2 ^ (-q).toNat : ℕ) : ℚ) / (den * 2 ^ q.toNat : ℕ) = _
  push_cast
  rw [zpow_eq_pow_div_pow two_ne_zero q, div_div_div_eq]

theorem zpow_lt_div_lt (hn : 0 < num) (hd : 0 < den) :
    (2 : ℚ) ^ ((num.log2 : ℤ) - den.log2 - 1) < num / den ∧
      (num : ℚ) / den < 2 ^ ((num.log2 : ℤ) - den.log2 + 1) := by
  have hnum : (2 : ℚ) ^ num.log2 ≤ num := mod_cast Nat.log2_self_le hn.ne'
  have hnum' : (num : ℚ) < 2 ^ (num.log2 + 1) := mod_cast Nat.lt_log2_self
  have hden : (2 : ℚ) ^ den.log2 ≤ den := mod_cast Nat.log2_self_le hd.ne'
  have hden' : (den : ℚ) < 2 ^ (den.log2 + 1) := mod_cast Nat.lt_log2_self
  have hlow : ((num.log2 : ℤ) - den.log2 - 1) = (num.log2 : ℤ) - (den.log2 + 1 : ℕ) := by omega
  have hhigh : ((num.log2 : ℤ) - den.log2 + 1) = ((num.log2 + 1 : ℕ) : ℤ) - den.log2 := by omega
  rw [hlow, hhigh, zpow_sub₀ two_ne_zero, zpow_sub₀ two_ne_zero]
  simp only [zpow_natCast]
  constructor
  · calc (2 : ℚ) ^ num.log2 / 2 ^ (den.log2 + 1) ≤ num / 2 ^ (den.log2 + 1) := by gcongr
      _ < num / den := by gcongr
  · calc (num : ℚ) / den < 2 ^ (num.log2 + 1) / den := by gcongr
      _ ≤ 2 ^ (num.log2 + 1) / 2 ^ den.log2 := by gcongr

theorem log_eq {r : ℚ} (hr : 0 < r) (hlow : (2 : ℚ) ^ q ≤ r) (hhigh : r < 2 ^ (q + 1)) : Int.log 2 r = q := by
  have hge : q ≤ Int.log 2 r := (Int.zpow_le_iff_le_log (by decide) hr).1 (mod_cast hlow)
  have hlt : Int.log 2 r < q + 1 := (Int.lt_zpow_iff_log_lt (by decide) hr).1 (mod_cast hhigh)
  omega

theorem roundingScale_eq (hn : 0 < num) (hd : 0 < den) :
    roundingScale num den = max (Int.log 2 ((num : ℚ) / den) - 52) (-1074) := by
  have hr : (0 : ℚ) < num / den := by positivity
  obtain ⟨hlow, hhigh⟩ := zpow_lt_div_lt hn hd
  unfold roundingScale
  set l : ℤ := (num.log2 : ℤ) - den.log2
  have hdown : (0 : ℚ) < (scaleDown num den (l - 52)).2 := mod_cast scaleDown_den_pos num hd (l - 52)
  have hbelow : (scaleDown num den (l - 52)).1 < (scaleDown num den (l - 52)).2 * 2 ^ 52 ↔
      (num : ℚ) / den < 2 ^ l := by
    have hpow : (2 : ℚ) ^ l = 2 ^ 52 * 2 ^ (l - 52) := by
      rw [← zpow_natCast, ← zpow_add₀ two_ne_zero]
      congr 1
      omega
    rw [hpow, ← div_lt_iff₀ (by positivity), ← scaleDown_div, div_lt_iff₀ hdown, mul_comm]
    exact_mod_cast Iff.rfl
  dsimp only
  congr 1
  split
  · next h =>
    rw [log_eq hr hlow.le (by simpa using hbelow.1 h)]
    omega
  · next h => rw [log_eq hr (not_lt.1 (mt hbelow.2 h)) hhigh]

theorem ofRatio_congr (negative : Bool) (hd : 0 < den) (hd' : 0 < den') (h : (num : ℚ) / den = num' / den') :
    ofRatio negative num den = ofRatio negative num' den' := by
  have hzero : num = 0 ↔ num' = 0 := by
    have hleft : (num : ℚ) / den = 0 ↔ num = 0 := by simp [hd.ne']
    have hright : (num' : ℚ) / den' = 0 ↔ num' = 0 := by simp [hd'.ne']
    rw [← hleft, h, hright]
  by_cases h0 : num = 0
  · rw [ofRatio, ofRatio, if_pos h0, if_pos (hzero.1 h0)]
  · have hscale : roundingScale num den = roundingScale num' den' := by
      rw [roundingScale_eq (by omega) hd, roundingScale_eq (by omega) hd', h]
    have hround := divToEven_congr (scaleDown_den_pos num hd (roundingScale num' den'))
      (scaleDown_den_pos num' hd' (roundingScale num' den')) (by rw [scaleDown_div, scaleDown_div, h])
    simp only [ofRatio, if_neg h0, if_neg (mt hzero.2 h0), hscale, hround]


/-! ### The double is the nearest -/

/-- A half is the most that is rounded off, and then the result is even. -/
theorem divToEven_bounds (num : Nat) (hd : 0 < den) :
    if divToEven num den % 2 = 0 then
      2 * (divToEven num den * den) ≤ 2 * num + den ∧ 2 * num ≤ 2 * (divToEven num den * den) + den
    else 2 * (divToEven num den * den) < 2 * num + den ∧ 2 * num < 2 * (divToEven num den * den) + den := by
  have hsplit : num / den * den + num % den = num := by rw [Nat.mul_comm, Nat.div_add_mod]
  have hrest := Nat.mod_lt num hd
  have hnext : (num / den + 1) * den = num / den * den + den := Nat.succ_mul ..
  unfold divToEven
  dsimp only
  split
  · split <;> omega
  · split
    · rw [hnext]
      split <;> omega
    · obtain heven | hodd := Nat.mod_two_eq_zero_or_one (num / den)
      · rw [heven, Nat.add_zero]
        split <;> omega
      · rw [hodd, hnext]
        split <;> omega

theorem divToEven_le (num den : Nat) : divToEven num den ≤ num / den + 1 := by
  unfold divToEven
  dsimp only
  split
  · omega
  · split <;> omega

theorem le_divToEven (num den : Nat) : num / den ≤ divToEven num den := by
  unfold divToEven
  dsimp only
  split
  · omega
  · split <;> omega

/-- The midpoint above the double of significand `k` and scale `e - 1074`. -/
theorem le_midpoint_succ (hk : k ≤ 9007199254740992) (hnormal : e = 0 ∨ 4503599627370496 ≤ k) :
    (4 * k + 2) * 2 ^ e ≤ midpoint (e * 4503599627370496 + k + 1) := by
  rw [midpoint_succ]
  obtain hlow | hhigh := Nat.lt_or_ge k 4503599627370496
  · obtain rfl : e = 0 := by omega
    rw [Nat.zero_mul, Nat.zero_add, if_pos (by omega), Nat.div_eq_of_lt hlow, Nat.mod_eq_of_lt hlow, Nat.zero_add]
  obtain hlt | rfl := Nat.lt_or_eq_of_le hk
  · have hexp : (e * 4503599627370496 + k) / 4503599627370496 = e + 1 := by omega
    have hfrac : 4503599627370496 + (e * 4503599627370496 + k) % 4503599627370496 = k := by omega
    rw [hexp, if_neg (by omega), hfrac, Nat.add_sub_cancel]
  · have hexp : (e * 4503599627370496 + 9007199254740992) / 4503599627370496 = e + 2 := by omega
    have hfrac : (e * 4503599627370496 + 9007199254740992) % 4503599627370496 = 0 := by omega
    rw [hexp, if_neg (by omega), hfrac]
    show _ ≤ _ * 2 ^ (e + 1)
    rw [Nat.pow_succ]
    omega

/-- The midpoint below the double of significand `k` and scale `e - 1074`. Below a power of two it is nearer, but no
number below the power is rounded at this scale. -/
theorem midpoint_le (hk : k ≤ 9007199254740992) (hnormal : e = 0 ∨ 4503599627370496 ≤ k) :
    midpoint (e * 4503599627370496 + k) ≤ (4 * k - 2) * 2 ^ e ∨
      0 < e ∧ k = 4503599627370496 ∧ midpoint (e * 4503599627370496 + k) ≤ 4 * k * 2 ^ e := by
  unfold midpoint
  obtain hlow | hhigh := Nat.lt_or_ge k 4503599627370496
  · obtain rfl : e = 0 := by omega
    left
    rw [Nat.zero_mul, Nat.zero_add, Nat.div_eq_of_lt hlow, Nat.mod_eq_of_lt hlow, midpointAt, if_pos rfl, Nat.zero_add,
      if_neg (by omega)]
  obtain hlt | rfl := Nat.lt_or_eq_of_le hk
  · have hexp : (e * 4503599627370496 + k) / 4503599627370496 = e + 1 := by omega
    have hfrac : 4503599627370496 + (e * 4503599627370496 + k) % 4503599627370496 = k := by omega
    rw [hexp, midpointAt, if_neg (by omega), hfrac, Nat.add_sub_cancel]
    split
    · next h => exact .inr ⟨by omega, by omega, Nat.mul_le_mul_right _ (Nat.sub_le _ _)⟩
    · exact .inl le_rfl
  · have hexp : (e * 4503599627370496 + 9007199254740992) / 4503599627370496 = e + 2 := by omega
    have hfrac : (e * 4503599627370496 + 9007199254740992) % 4503599627370496 = 0 := by omega
    left
    rw [hexp, hfrac, midpointAt, if_neg (by omega), if_pos (by omega)]
    show _ * 2 ^ (e + 1) ≤ _
    rw [Nat.pow_succ]
    omega

/-- At the scale that is chosen the quotient has at most fifty-three binary digits before the point, and not fewer
unless the scale is the least. -/
theorem scaled_bounds (hn : 0 < num) (hd : 0 < den) :
    (num : ℚ) / den / 2 ^ roundingScale num den < 2 ^ 53 ∧
      (roundingScale num den = -1074 ∨ 2 ^ 52 ≤ (num : ℚ) / den / 2 ^ roundingScale num den) := by
  have hr : (0 : ℚ) < num / den := by positivity
  have hlow : (2 : ℚ) ^ Int.log 2 ((num : ℚ) / den) ≤ num / den := mod_cast Int.zpow_log_le_self (by decide) hr
  have hhigh : (num : ℚ) / den < 2 ^ (Int.log 2 ((num : ℚ) / den) + 1) :=
    mod_cast Int.lt_zpow_succ_log_self (by decide) ((num : ℚ) / den)
  rw [roundingScale_eq hn hd]
  generalize Int.log 2 ((num : ℚ) / den) = l at hlow hhigh
  constructor
  · rw [div_lt_iff₀ (by positivity), ← zpow_natCast, ← zpow_add₀ two_ne_zero]
    exact hhigh.trans_le (zpow_le_zpow_right₀ one_le_two (by omega))
  · obtain h | h := le_or_gt (l - 52) (-1074)
    · exact .inl (max_eq_right h)
    · right
      rw [max_eq_left h.le, le_div_iff₀ (by positivity), ← zpow_natCast, ← zpow_add₀ two_ne_zero]
      exact hlow.trans' (zpow_le_zpow_right₀ one_le_two (by omega))

theorem midpoint_mul_le (hk : k ≤ 9007199254740992) (hnormal : e = 0 ∨ 4503599627370496 ≤ k)
    (hnum : e = 0 ∨ 4503599627370496 * den ≤ num) :
    midpoint (e * 4503599627370496 + k) * den ≤ (4 * k - 2) * den * 2 ^ e ∨
      k % 2 = 0 ∧ midpoint (e * 4503599627370496 + k) * den ≤ 4 * num * 2 ^ e := by
  obtain hle | ⟨he, rfl, hle⟩ := midpoint_le hk hnormal
  · left
    rw [Nat.mul_right_comm]
    exact Nat.mul_le_mul_right den hle
  · right
    refine ⟨rfl, (Nat.mul_le_mul_right den hle).trans ?_⟩
    rw [Nat.mul_right_comm]
    exact Nat.mul_le_mul_right _ (by omega)

/-- What is rounded to `k` lies between the midpoints around `k * 2 ^ (e - 1074)`, in units of `2 ^ -1076`. -/
theorem midpoint_mul_le_mul (hd : 0 < den) (hk : divToEven num den ≤ 9007199254740992)
    (hnum : e = 0 ∨ 4503599627370496 * den ≤ num) :
    if divToEven num den % 2 = 0 then
      midpoint (e * 4503599627370496 + divToEven num den) * den ≤ 4 * num * 2 ^ e ∧
        4 * num * 2 ^ e ≤ midpoint (e * 4503599627370496 + divToEven num den + 1) * den
    else midpoint (e * 4503599627370496 + divToEven num den) * den < 4 * num * 2 ^ e ∧
      4 * num * 2 ^ e < midpoint (e * 4503599627370496 + divToEven num den + 1) * den := by
  have hnormal : e = 0 ∨ 4503599627370496 ≤ divToEven num den :=
    hnum.imp_right fun h => ((Nat.le_div_iff_mul_le hd).2 h).trans (le_divToEven num den)
  have hbounds := divToEven_bounds num hd
  have hlower := midpoint_mul_le hk hnormal hnum
  have hupper := Nat.mul_le_mul_right den (le_midpoint_succ hk hnormal)
  generalize divToEven num den = k at hbounds hlower hupper ⊢
  have hbelow : (4 * k - 2) * den = 4 * (k * den) - 2 * den := by rw [Nat.sub_mul, Nat.mul_assoc]
  have habove : (4 * k + 2) * den = 4 * (k * den) + 2 * den := by rw [Nat.add_mul, Nat.mul_assoc]
  rw [hbelow] at hlower
  rw [Nat.mul_right_comm, habove] at hupper
  split at hbounds
  · next heven =>
    rw [if_pos heven]
    refine ⟨?_, hupper.trans' (Nat.mul_le_mul_right _ (by omega))⟩
    obtain hle | ⟨-, hle⟩ := hlower
    · exact hle.trans (Nat.mul_le_mul_right _ (by omega))
    · exact hle
  · next hodd =>
    rw [if_neg hodd]
    have hpos : den ≤ k * den := Nat.le_mul_of_pos_left den (by omega)
    refine ⟨?_, hupper.trans_lt' (Nat.mul_lt_mul_of_pos_right (by omega) (Nat.two_pow_pos _))⟩
    obtain hle | ⟨heven, -⟩ := hlower
    · exact hle.trans_lt (Nat.mul_lt_mul_of_pos_right (by omega) (Nat.two_pow_pos _))
    · exact absurd heven hodd

theorem divToEven_scaleDown_le (hn : 0 < num) (hd : 0 < den) :
    divToEven (scaleDown num den (roundingScale num den)).1 (scaleDown num den (roundingScale num den)).2 ≤
      9007199254740992 := by
  have hden := scaleDown_den_pos num hd (roundingScale num den)
  have hbelow := (scaled_bounds hn hd).1
  rw [← scaleDown_div, div_lt_iff₀ (mod_cast hden)] at hbelow
  exact (divToEven_le _ _).trans ((Nat.div_lt_iff_lt_mul hden).2 (mod_cast hbelow))

theorem magnitude_ofRatio {negative : Bool} (h0 : num ≠ 0) (hfinite : (ofRatio negative num den).isFinite) :
    (ofRatio negative num den).magnitude = (roundingScale num den + 1074).toNat * 4503599627370496 +
      divToEven (scaleDown num den (roundingScale num den)).1 (scaleDown num den (roundingScale num den)).2 := by
  have hmin (m : Nat) : min m infinityBits < 9223372036854775808 :=
    Nat.lt_of_le_of_lt (Nat.min_le_right _ _) (by decide)
  unfold ofRatio at hfinite ⊢
  rw [if_neg h0] at hfinite ⊢
  dsimp only at hfinite ⊢
  rw [isFinite_iff, magnitude_ofMagnitude negative (hmin _)] at hfinite
  rw [magnitude_ofMagnitude negative (hmin _)]
  exact Nat.min_eq_left (Nat.le_of_lt (Nat.lt_of_not_le fun h => hfinite.ne (Nat.min_eq_right h)))

theorem div_mul_two_zpow (n d e : Nat) :
    (n : ℚ) / d * 2 ^ ((e : ℤ) - 1074) * 2 ^ 1076 = (4 * n * 2 ^ e : ℕ) / d := by
  have hpow : (2 : ℚ) ^ ((e : ℤ) - 1074) * 2 ^ 1076 = 4 * 2 ^ e := by
    have hexp : (e : ℤ) - 1074 + (1076 : ℕ) = (2 + e : ℕ) := by omega
    rw [← zpow_natCast 2 1076, ← zpow_add₀ two_ne_zero, hexp, zpow_natCast, pow_add]
    norm_num
  rw [mul_assoc, hpow]
  push_cast
  ring

theorem readsAs_of_magnitude_eq {x : Binary64} (hd : 0 < den) (hk : divToEven num den ≤ 9007199254740992)
    (hnormal : e = 0 ∨ 4503599627370496 * den ≤ num)
    (hx : x.magnitude = e * 4503599627370496 + divToEven num den) :
    ReadsAs ((num : ℚ) / den * 2 ^ ((e : ℤ) - 1074)) x := by
  have hd' : (0 : ℚ) < den := mod_cast hd
  have hparity : (e * 4503599627370496 + divToEven num den) % 2 = divToEven num den % 2 := by omega
  rw [readsAs_iff, hx, hparity, div_mul_two_zpow, le_div_iff₀ hd', lt_div_iff₀ hd', div_le_iff₀ hd', div_lt_iff₀ hd']
  exact_mod_cast midpoint_mul_le_mul hd hk hnormal

/-- A quotient rounds to the double that is made of it, unless that is infinite. -/
theorem readsAs_ofRatio (negative : Bool) (hd : 0 < den) (hfinite : (ofRatio negative num den).isFinite) :
    ReadsAs ((num : ℚ) / den) (ofRatio negative num den) := by
  by_cases h0 : num = 0
  · have hzero : (ofRatio negative 0 den).magnitude = 0 := by
      rw [ofRatio, if_pos rfl, zero, magnitude_ofMagnitude negative (by decide)]
    have hmidpoint : midpoint 0 = 0 := rfl
    rw [readsAs_iff, h0, hzero, if_pos (by decide), hmidpoint, Nat.cast_zero, zero_div, zero_mul]
    exact ⟨le_rfl, Nat.cast_nonneg _⟩
  have hn : 0 < num := Nat.pos_of_ne_zero h0
  obtain ⟨e, hscale⟩ : ∃ e : ℕ, roundingScale num den = e - 1074 := by
    have hleast : -1074 ≤ roundingScale num den := by
      rw [roundingScale_eq hn hd]
      exact le_max_right _ _
    exact ⟨(roundingScale num den + 1074).toNat, by omega⟩
  have hplace : (roundingScale num den + 1074).toNat = e := by omega
  have habove := (scaled_bounds hn hd).2
  have hden := scaleDown_den_pos num hd (roundingScale num den)
  have hk := divToEven_scaleDown_le hn hd
  have hdiv := scaleDown_div num den (roundingScale num den)
  have hmagnitude := magnitude_ofRatio h0 hfinite
  generalize scaleDown num den (roundingScale num den) = parts at hden hk hdiv hmagnitude
  obtain ⟨n, d⟩ := parts
  dsimp only at hden hk hdiv hmagnitude
  have hd' : (0 : ℚ) < d := mod_cast hden
  rw [← hdiv, le_div_iff₀ hd'] at habove
  have hvalue : (num : ℚ) / den = n / d * 2 ^ ((e : ℤ) - 1074) := by
    rw [hdiv, hscale, div_mul_cancel₀ _ (by positivity)]
  rw [hvalue]
  refine readsAs_of_magnitude_eq hden hk ?_ (hplace ▸ hmagnitude)
  obtain h | h := habove
  · exact .inl (by omega)
  · exact .inr (by exact_mod_cast h)

/-- Only quotients from half of the least power that is infinite on can be too large. -/
theorem isFinite_ofRatio (negative : Bool) (hd : 0 < den) (h : (num : ℚ) / den < 2 ^ (1023 : ℤ)) :
    (ofRatio negative num den).isFinite := by
  unfold ofRatio
  by_cases h0 : num = 0
  · rw [if_pos h0]
    exact isFinite_ofMagnitude negative (by decide)
  have hn : 0 < num := Nat.pos_of_ne_zero h0
  have hr : (0 : ℚ) < num / den := by positivity
  have hlog : Int.log 2 ((num : ℚ) / den) < 1023 := by
    refine (Int.lt_zpow_iff_log_lt (by decide) hr).1 ?_
    rw [Nat.cast_ofNat]
    exact h
  have hscale : roundingScale num den ≤ 970 := by
    rw [roundingScale_eq hn hd]
    omega
  have hk := divToEven_scaleDown_le hn hd
  rw [if_neg h0]
  refine isFinite_ofMagnitude negative (Nat.lt_of_le_of_lt (Nat.min_le_left _ _) ?_)
  show (roundingScale num den + 1074).toNat * 4503599627370496 + divToEven (scaleDown num den _).1
    (scaleDown num den _).2 < 2047 * 4503599627370496
  omega

theorem isNegative_ofRatio (negative : Bool) (num den : Nat) :
    (ofRatio negative num den).isNegative = negative := by
  unfold ofRatio
  split
  · exact isNegative_ofMagnitude negative (by decide)
  · exact isNegative_ofMagnitude negative (Nat.lt_of_le_of_lt (Nat.min_le_right _ _) (by decide))

end Binary64

end EntitySearch
