import EntitySearch.Number.Binary64

/-!
# The magnitude of a double

A double is its sign and its `magnitude`, the other sixty-three bits, in which the exponent stands before the
fraction. Whether it is zero, finite or NaN, and how large it is, is a matter of the magnitude alone.
-/

namespace EntitySearch

namespace Binary64
variable {x y : Binary64} {n : Nat}

/-- The bits without that of the sign. -/
def magnitude (x : Binary64) : Nat := x.bits.toNat % 9223372036854775808

theorem toNat_bits_eq (x : Binary64) :
    x.bits.toNat = (if x.isNegative then 9223372036854775808 else 0) + x.magnitude := by
  have hbits : x.bits.toNat < 18446744073709551616 := x.bits.toNat_lt
  have hsign : x.isNegative = decide (9223372036854775808 ≤ x.bits.toNat) := rfl
  rw [hsign, magnitude]
  split <;> simp_all <;> omega

theorem eq_of_magnitude_eq (hsign : x.isNegative = y.isNegative) (h : x.magnitude = y.magnitude) : x = y := by
  have hbits : x.bits.toNat = y.bits.toNat := by rw [toNat_bits_eq, toNat_bits_eq, hsign, h]
  cases x
  cases y
  exact congrArg Binary64.mk (UInt64.toNat_inj.1 hbits)

theorem exponentBits_eq (x : Binary64) : x.exponentBits = x.magnitude / 4503599627370496 := by
  show x.bits.toNat / 4503599627370496 % 2048 = _
  unfold magnitude
  omega

theorem fraction_eq (x : Binary64) : x.fraction = x.magnitude % 4503599627370496 := by
  show x.bits.toNat % 4503599627370496 = _
  unfold magnitude
  omega

theorem isZero_iff : x.isZero ↔ x.magnitude = 0 := decide_eq_true_iff

theorem isFinite_iff : x.isFinite ↔ x.magnitude < 2047 * 4503599627370496 := by
  rw [isFinite, decide_eq_true_iff, exponentBits_eq]
  omega

theorem isNaN_eq_false (h : x.isFinite) : x.isNaN = false := by
  have hexp : x.exponentBits < 2047 := decide_eq_true_iff.1 h
  simp [isNaN, Nat.ne_of_lt hexp]

theorem toNat_bits_ofMagnitude (negative : Bool) (h : n < 9223372036854775808) :
    (ofMagnitude negative n).bits.toNat = if negative then 9223372036854775808 + n else n := by
  unfold ofMagnitude
  cases negative <;> simp [Nat.toUInt64] <;> omega

theorem magnitude_ofMagnitude (negative : Bool) (h : n < 9223372036854775808) :
    (ofMagnitude negative n).magnitude = n := by
  rw [magnitude, toNat_bits_ofMagnitude negative h]
  split <;> omega

theorem isNegative_ofMagnitude (negative : Bool) (h : n < 9223372036854775808) :
    (ofMagnitude negative n).isNegative = negative := by
  show decide (9223372036854775808 ≤ (ofMagnitude negative n).bits.toNat) = negative
  rw [toNat_bits_ofMagnitude negative h]
  cases negative
  · exact decide_eq_false (by simpa using h)
  · exact decide_eq_true (by simp)

theorem significand_eq (x : Binary64) : x.significand =
    (if x.magnitude / 4503599627370496 = 0 then 0 else 4503599627370496) + x.magnitude % 4503599627370496 := by
  rw [significand, exponentBits_eq, fraction_eq]
  split
  · exact (Nat.zero_add _).symm
  · rfl

theorem isFinite_ofMagnitude (negative : Bool) (h : n < infinityBits) : (ofMagnitude negative n).isFinite := by
  have hbound : n < 2047 * 4503599627370496 := h
  rw [isFinite_iff, magnitude_ofMagnitude negative (by omega)]
  exact hbound

end Binary64

end EntitySearch
