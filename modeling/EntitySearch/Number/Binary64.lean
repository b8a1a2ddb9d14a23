/-!
# Binary64 numbers

A `Binary64` is a double given by its sixty-four bits: `sign`, eleven exponent bits, fifty-two
fraction bits. A finite one has the value `± significand * 2 ^ scale`.

`ofRatio` rounds a quotient of natural numbers to the nearest double, a tie going to the even
neighbour. The rounding is exact because it is done in `Nat`: for the scale `q` of the result, the
quotient `num / (den * 2 ^ q)` is rounded once to the integer `k`, and `(q + 1074) * 2 ^ 52 + k` are
the bits of `k * 2 ^ q`, for subnormal results and for a carry to the next power of two alike.

`ofInt`, `mul` and `div` are roundings of exact results. `scaleByTen` is not: it rounds the power of
ten first and the product or quotient with it once more.
-/

namespace EntitySearch

/-- A double, by its bits. Two of them are `=` iff they have the same bits; `numEq` compares the
numbers. -/
structure Binary64 where
  bits : UInt64
deriving DecidableEq, Inhabited

namespace Binary64

def isNegative (x : Binary64) : Bool := Nat.pow 2 63 ≤ x.bits.toNat

/-- The exponent bits, `0` for subnormal numbers and `2047` for infinities and NaN. -/
def exponentBits (x : Binary64) : Nat := x.bits.toNat / Nat.pow 2 52 % 2048

def fraction (x : Binary64) : Nat := x.bits.toNat % Nat.pow 2 52

def isFinite (x : Binary64) : Bool := x.exponentBits < 2047

def isNaN (x : Binary64) : Bool := x.exponentBits = 2047 && x.fraction ≠ 0

def isZero (x : Binary64) : Bool := x.bits.toNat % Nat.pow 2 63 = 0

def significand (x : Binary64) : Nat :=
  if x.exponentBits = 0 then x.fraction else Nat.pow 2 52 + x.fraction

def scale (x : Binary64) : Int :=
  if x.exponentBits = 0 then -1074 else (x.exponentBits : Int) - 1075

/-- Equality of the numbers: the two zeros are equal, and NaN equals nothing. -/
def numEq (x y : Binary64) : Bool :=
  !x.isNaN && !y.isNaN && (x = y || x.isZero && y.isZero)

/-- The double with this sign and these magnitude bits. -/
def ofMagnitude (negative : Bool) (magnitude : Nat) : Binary64 :=
  ⟨(if negative then Nat.pow 2 63 + magnitude else magnitude).toUInt64⟩

/-- The bits of infinity, and the least magnitude that is not finite. -/
def infinityBits : Nat := 2047 * Nat.pow 2 52

def zero (negative : Bool) : Binary64 := ofMagnitude negative 0

def infinity (negative : Bool) : Binary64 := ofMagnitude negative infinityBits

def nan : Binary64 := ⟨0x7ff8000000000000⟩

/-- `num / den` to the nearest integer, a tie to the even one. -/
def divToEven (num den : Nat) : Nat :=
  let k := num / den
  let r := num % den
  if 2 * r < den then k else if den < 2 * r then k + 1 else k + k % 2

/-- `num / den` as a quotient of naturals after division by `2 ^ q`. -/
def scaleDown (num den : Nat) (q : Int) : Nat × Nat :=
  (num * Nat.pow 2 (-q).toNat, den * Nat.pow 2 q.toNat)

/-- The scale at which `num / den` has fifty-three bits, or the least one. -/
def roundingScale (num den : Nat) : Int :=
  let q : Int := (num.log2 : Int) - den.log2 - 52
  let (n, d) := scaleDown num den q
  max (if n < d * Nat.pow 2 52 then q - 1 else q) (-1074)

/-- The double nearest to `± num / den`, a tie going to the even neighbour, and infinity from
half a unit beyond the largest finite double on. -/
def ofRatio (negative : Bool) (num den : Nat) : Binary64 :=
  if num = 0 then zero negative
  else
    let q := roundingScale num den
    let (n, d) := scaleDown num den q
    let magnitude := (q + 1074).toNat * Nat.pow 2 52 + divToEven n d
    ofMagnitude negative (min magnitude infinityBits)

def ofInt (i : Int) : Binary64 := ofRatio (i < 0) i.natAbs 1

def digitCount (n : Nat) : Nat := (Nat.toDigits 10 n).length

/-- The product of two finite doubles. -/
def mul (x y : Binary64) : Binary64 :=
  let q := x.scale + y.scale
  ofRatio (x.isNegative != y.isNegative) (x.significand * y.significand * Nat.pow 2 q.toNat)
    (Nat.pow 2 (-q).toNat)

/-- The quotient of two finite doubles, of which the second is not zero. -/
def div (x y : Binary64) : Binary64 :=
  let q := x.scale - y.scale
  ofRatio (x.isNegative != y.isNegative) (x.significand * Nat.pow 2 q.toNat)
    (y.significand * Nat.pow 2 (-q).toNat)

/-- The double nearest to `10 ^ k`, which is finite up to `k = 308`. -/
def powerOfTen (k : Nat) : Binary64 := ofRatio false (Nat.pow 10 k) 1

/-- `x * 10 ^ exponent` by a multiplication or a division with a power of ten. Below the last power
that is finite `x` is divided by that first, as often as it takes. -/
def scaleByTen (x : Binary64) (exponent : Int) : Binary64 :=
  if x.isZero then x
  else if 308 < exponent then infinity x.isNegative
  else if 0 ≤ exponent then x.mul (powerOfTen exponent.toNat)
  else if -308 ≤ exponent then x.div (powerOfTen (-exponent).toNat)
  else scaleByTen (x.div (powerOfTen 308)) (exponent + 308)
termination_by exponent.natAbs

end Binary64

end EntitySearch
