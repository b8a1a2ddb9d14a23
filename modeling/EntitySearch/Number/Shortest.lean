import EntitySearch.Number.Binary64

/-!
# The shortest decimal of a double

`Binary64.shortest` gives, for a finite double that is not zero, the decimal with the fewest digits
among those that round to this double, and of these the nearest to it. The decimals that round to
it are the ones between the two midpoints to the neighbouring doubles; the midpoints belong to them
iff the significand is even.

For `n` digits it is enough to look at the two multiples of `10 ^ k` around the value, `k` being the
place of the `n`-th digit: if any multiple lies between the midpoints, one of these two does. All
comparisons are between naturals.
-/

namespace EntitySearch

/-- Where a decimal halfway between two candidates goes. -/
inductive Tie
  | toEven
  | up
deriving DecidableEq

/-- Whether a number halfway between `low` and `low + 1` goes to `low + 1`. -/
def Tie.goesUp (tie : Tie) (low : Nat) : Bool :=
  match tie with
  | .toEven => low % 2 = 1
  | .up => true

/-- The number `coefficient * 10 ^ exponent`. -/
structure Decimal where
  coefficient : Nat
  exponent : Int
deriving DecidableEq

namespace Decimal

/-- Moves up to `fuel` trailing zeros of the coefficient into the exponent. -/
def stripZeros : Nat → Decimal → Decimal
  | 0, d => d
  | fuel + 1, d =>
    if d.coefficient % 10 = 0 then stripZeros fuel ⟨d.coefficient / 10, d.exponent + 1⟩ else d

end Decimal

namespace Binary64

/-- The value and the two midpoints around it, all in units of `2 ^ scale / 4`. -/
structure Neighbourhood where
  value : Nat
  lower : Nat
  upper : Nat
  /-- Whether the midpoints themselves round to the value. -/
  closed : Bool

def neighbourhood (x : Binary64) : Neighbourhood where
  value := 4 * x.significand
  lower := 4 * x.significand - (if x.fraction = 0 ∧ 1 < x.exponentBits then 1 else 2)
  upper := 4 * x.significand + 2
  closed := x.significand % 2 = 0

/-- The number of places before the point, for a value below one the negated number of zeros after
it: `10 ^ (p - 1) ≤ num / den < 10 ^ p`. -/
def leadingPlace (num den : Nat) : Int :=
  if den ≤ num then digitCount (num / den)
  else 1 - (digitCount ((den + num - 1) / num - 1) : Int)

/-- The better of the two multiples of `10 ^ k` around the value that rounds to it, if one does. -/
def candidate? (tie : Tie) (hood : Neighbourhood) (s k : Int) : Option Decimal :=
  let a := Nat.pow 2 s.toNat * Nat.pow 10 (-k).toNat
  let b := Nat.pow 2 (-s).toNat * Nat.pow 10 k.toNat
  let low := hood.value * a / b
  let readsBack (c : Nat) : Bool :=
    if hood.closed then hood.lower * a ≤ c * b && c * b ≤ hood.upper * a
    else hood.lower * a < c * b && c * b < hood.upper * a
  let twiceRest := 2 * (hood.value * a - low * b)
  let highNearer : Bool := if twiceRest = b then tie.goesUp low else b < twiceRest
  if readsBack low && readsBack (low + 1) then some ⟨if highNearer then low + 1 else low, k⟩
  else if readsBack low then some ⟨low, k⟩
  else if readsBack (low + 1) then some ⟨low + 1, k⟩
  else none

/-- The shortest decimal of a finite double that is not zero, without its sign and without trailing
zeros in the coefficient. -/
def shortest (tie : Tie) (x : Binary64) : Decimal :=
  let hood := x.neighbourhood
  let s := x.scale - 2
  let place := leadingPlace (hood.value * Nat.pow 2 s.toNat) (Nat.pow 2 (-s).toNat)
  let found := (List.range 17).findSome? fun n => candidate? tie hood s (place - (n + 1 : Nat))
  (found.getD ⟨0, 0⟩).stripZeros 17

end Binary64

end EntitySearch
