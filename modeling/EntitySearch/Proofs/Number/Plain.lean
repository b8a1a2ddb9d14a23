import EntitySearch.Proofs.Number.Shortest
import EntitySearch.Proofs.Text.Runs
import EntitySearch.Scalar

/-!
# Plain texts of doubles

In rendered predicates a finite double has a sign and digits with at most one point among them, but no exponent.
The digits and the point stand for the decimal that was written (`Decimal.plainValue_positional`), and this one
rounds to the double only; so the text determines the double (`Binary64.write_plainLayout_inj`).
-/

namespace EntitySearch

namespace Decimal
variable {w f ds : List Char} {n : Nat}

/-- The number that digits with a point among them stand for. -/
def plainValue (cs : List Char) : ℚ :=
  natOfChars (cs.filter (· ≠ '.')) / 10 ^ (cs.dropWhile (· ≠ '.')).tail.length

theorem ne_point_of_isDigit {c : Char} (h : c.isDigit) : decide (c ≠ '.') = true := by
  rw [decide_eq_true_iff]
  rintro rfl
  exact absurd h (by decide)

theorem plainValue_of_isDigit (h : ∀ c ∈ ds, c.isDigit) : plainValue ds = natOfChars ds := by
  have hpoint : ∀ c ∈ ds, decide (c ≠ '.') = true := fun c hc => ne_point_of_isDigit (h c hc)
  have hdrop : ds.dropWhile (· ≠ '.') = [] := by
    rw [← List.append_nil ds, List.dropWhile_append_of_pos hpoint, List.dropWhile_nil]
  rw [plainValue, List.filter_eq_self.2 hpoint, hdrop]
  simp

theorem plainValue_point (hw : ∀ c ∈ w, c.isDigit) (hf : ∀ c ∈ f, c.isDigit) :
    plainValue (w ++ '.' :: f) = natOfChars (w ++ f) / 10 ^ f.length := by
  have hpoint : ∀ c ∈ w, decide (c ≠ '.') = true := fun c hc => ne_point_of_isDigit (hw c hc)
  have hpoint' : ∀ c ∈ f, decide (c ≠ '.') = true := fun c hc => ne_point_of_isDigit (hf c hc)
  rw [plainValue, List.dropWhile_append_of_pos hpoint, List.filter_append, List.filter_eq_self.2 hpoint,
    List.filter_cons_of_neg (by decide), List.filter_eq_self.2 hpoint', List.dropWhile_cons_of_neg (by decide),
    List.tail_cons]

theorem natOfChars_append_zeros (ds : List Char) (n : Nat) :
    natOfChars (ds ++ zeros n) = natOfChars ds * 10 ^ n := by
  rw [natOfChars_eq, Nat.ofDigitChars_append, zeros, Nat.ofDigitChars_replicate_zero, ← natOfChars_eq,
    Nat.mul_comm]

theorem natOfChars_zeros_append (n : Nat) (ds : List Char) : natOfChars (zeros n ++ ds) = natOfChars ds := by
  rw [natOfChars_eq, Nat.ofDigitChars_append, zeros, Nat.ofDigitChars_replicate_zero, Nat.mul_zero, natOfChars_eq]

theorem isDigit_of_mem_digits {d : Decimal} : ∀ c ∈ d.digits, c.isDigit := fun _ => isDigit_of_mem_natChars

theorem isDigit_of_mem_zeros : ∀ c ∈ zeros n, c.isDigit := by
  intro c hc
  rw [List.eq_of_mem_replicate hc]
  decide

theorem natOfChars_digits (d : Decimal) : natOfChars d.digits = d.coefficient := natOfChars_natChars _

theorem coefficient_div_pow (d : Decimal) (h : (n : Int) = -d.exponent) :
    (d.coefficient : ℚ) / 10 ^ n = d.value := by
  rw [value, ← Int.neg_neg d.exponent, ← h, zpow_neg, zpow_natCast, div_eq_mul_inv]

/-- The texts without exponent: digits, with a point among them if the exponent is negative. By where the point
is, behind the digits of the decimal, among them or before them. -/
theorem positional_false (d : Decimal) :
    (∃ ds, (∀ c ∈ ds, c.isDigit) ∧ d.positional false = ds ∧ (natOfChars ds : ℚ) = d.value) ∨
    ∃ w f, (∀ c ∈ w, c.isDigit) ∧ (∀ c ∈ f, c.isDigit) ∧ d.positional false = w ++ '.' :: f ∧
      (natOfChars (w ++ f) : ℚ) / 10 ^ f.length = d.value := by
  have hpower : d.leadingPower + 1 = d.exponent + d.digits.length := by
    rw [leadingPower]
    omega
  simp only [positional, hpower, Bool.false_eq_true, if_false, List.append_nil]
  split_ifs with hexp hwhole
  · left
    refine ⟨_, List.forall_mem_append.2 ⟨isDigit_of_mem_digits, isDigit_of_mem_zeros⟩, rfl, ?_⟩
    have hpow : (10 : ℚ) ^ d.exponent = 10 ^ d.exponent.toNat := by
      rw [← zpow_natCast, Int.toNat_of_nonneg hexp]
    rw [natOfChars_append_zeros, natOfChars_digits, value, hpow]
    push_cast
    rfl
  · right
    refine ⟨_, _, fun c hc => isDigit_of_mem_digits c (List.mem_of_mem_take hc),
      fun c hc => isDigit_of_mem_digits c (List.mem_of_mem_drop hc), rfl, ?_⟩
    rw [List.take_append_drop, natOfChars_digits, coefficient_div_pow]
    rw [List.length_drop]
    omega
  · right
    refine ⟨['0'], _, List.all_eq_true.1 rfl, List.forall_mem_append.2 ⟨isDigit_of_mem_zeros, isDigit_of_mem_digits⟩,
      rfl, ?_⟩
    have hzero : ['0'] = zeros 1 := rfl
    rw [hzero, natOfChars_zeros_append, natOfChars_zeros_append, natOfChars_digits, coefficient_div_pow]
    rw [List.length_append, zeros, List.length_replicate]
    omega

theorem plainValue_positional (d : Decimal) : plainValue (d.positional false) = d.value := by
  obtain ⟨ds, hds, hpos, hvalue⟩ | ⟨w, f, hw, hf, hpos, hvalue⟩ := positional_false d
  · rw [hpos, plainValue_of_isDigit hds, hvalue]
  · rw [hpos, plainValue_point hw hf, hvalue]

theorem mem_positional {d : Decimal} {c : Char} (h : c ∈ d.positional false) : c.isDigit ∨ c = '.' := by
  obtain ⟨ds, hds, hpos, -⟩ | ⟨w, f, hw, hf, hpos, -⟩ := positional_false d
  · exact .inl (hds c (hpos ▸ h))
  · rw [hpos, List.mem_append, List.mem_cons] at h
    obtain h | rfl | h := h
    · exact .inl (hw c h)
    · exact .inr rfl
    · exact .inl (hf c h)

theorem positional_ne_sign_cons (d : Decimal) (rest : List Char) : d.positional false ≠ '-' :: rest := by
  intro h
  have hmem : '-' ∈ d.positional false := by
    rw [h]
    exact .head _
  have hsign : '-'.isDigit ∨ '-' = '.' := mem_positional hmem
  exact absurd hsign (by decide)

end Decimal

namespace Binary64
variable {x y : Binary64}

/-- The decimal by which a finite double is written. -/
def decimal (tie : Tie) (x : Binary64) : Decimal := if x.isZero then ⟨0, 0⟩ else x.shortest tie

theorem readsAs_decimal (tie : Tie) (x : Binary64) : ReadsAs (x.decimal tie).value x := by
  unfold decimal
  split
  · next h =>
    rw [readsAs_iff, isZero_iff.1 h]
    simp [Decimal.value, midpoint, midpointAt]
  · next h => exact readsAs_shortest tie (Bool.eq_false_iff.2 h)

theorem toList_write_plainLayout (h : x.isFinite) : (x.write plainLayout).toList =
    (if x.isNegative then ['-'] else []) ++ (x.decimal .up).positional false := by
  simp [write, isNaN_eq_false h, h, decimal, Decimal.write, plainLayout]

theorem mem_write_plainLayout (h : x.isFinite) {c : Char} (hc : c ∈ (x.write plainLayout).toList) :
    c.isDigit ∨ c = '-' ∨ c = '.' := by
  rw [toList_write_plainLayout h, List.mem_append] at hc
  obtain hc | hc := hc
  · split at hc
    · exact .inr (.inl (List.mem_singleton.1 hc))
    · cases hc
  · exact (Decimal.mem_positional hc).imp_right .inr

/-- The text of a finite double determines its bits. -/
theorem write_plainLayout_inj (hx : x.isFinite) (hy : y.isFinite)
    (h : x.write plainLayout = y.write plainLayout) : x = y := by
  have hchars := congrArg String.toList h
  rw [toList_write_plainLayout hx, toList_write_plainLayout hy] at hchars
  have hparts : x.isNegative = y.isNegative ∧
      (x.decimal .up).positional false = (y.decimal .up).positional false := by
    cases hsx : x.isNegative <;> cases hsy : y.isNegative <;> simp only [hsx, hsy] at hchars
    · exact ⟨rfl, hchars⟩
    · exact absurd hchars (Decimal.positional_ne_sign_cons _ _)
    · exact absurd hchars.symm (Decimal.positional_ne_sign_cons _ _)
    · exact ⟨rfl, (List.cons.inj hchars).2⟩
  have hvalue : (x.decimal .up).value = (y.decimal .up).value := by
    rw [← Decimal.plainValue_positional, hparts.2, Decimal.plainValue_positional]
  have hreads : ReadsAs (x.decimal .up).value y := hvalue ▸ readsAs_decimal .up y
  exact eq_of_magnitude_eq hparts.1 (magnitude_eq_of_readsAs (readsAs_decimal .up x) hreads)

end Binary64

end EntitySearch
