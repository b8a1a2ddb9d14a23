import EntitySearch.Number.Integer
import EntitySearch.Number.Shortest

/-!
# Writing a double in decimal

`Binary64.write` writes a double by its shortest decimal, as a `Layout` says. The two layouts of this
library, that of JSON texts and that of rendered predicates, are given where they are used.
-/

namespace EntitySearch

structure Layout where
  tie : Tie
  /-- Which powers of ten of the leading digit are written without an exponent. -/
  positional : Int → Bool
  /-- Whether a positional text of an integer ends in `.0`. -/
  pointAlways : Bool

namespace Decimal

def digits (d : Decimal) : List Char := natChars d.coefficient

/-- The power of ten of the leading digit. -/
def leadingPower (d : Decimal) : Int := d.exponent + d.digits.length - 1

def zeros (n : Nat) : List Char := List.replicate n '0'

def positional (d : Decimal) (pointAlways : Bool) : List Char :=
  let whole := d.leadingPower + 1
  if 0 ≤ d.exponent then
    d.digits ++ zeros d.exponent.toNat ++ (if pointAlways then ['.', '0'] else [])
  else if 0 < whole then
    d.digits.take whole.toNat ++ '.' :: d.digits.drop whole.toNat
  else
    '0' :: '.' :: zeros (-whole).toNat ++ d.digits

/-- One digit before the point, and the exponent with its sign. -/
def scientific (d : Decimal) : List Char :=
  let mantissa := match d.digits with
    | c :: [] => [c]
    | c :: rest => c :: '.' :: rest
    | [] => []
  let power := d.leadingPower
  mantissa ++ 'e' :: (if power < 0 then '-' else '+') :: natChars power.natAbs

def write (layout : Layout) (d : Decimal) : List Char :=
  if layout.positional d.leadingPower then d.positional layout.pointAlways else d.scientific

end Decimal

namespace Binary64

/-- The text of a double; infinities and NaN are named. -/
def write (layout : Layout) (x : Binary64) : String :=
  if x.isNaN then "NaN"
  else
    let sign := if x.isNegative then ['-'] else []
    if !x.isFinite then .ofList (sign ++ "inf".toList)
    else
      let decimal := if x.isZero then ⟨0, 0⟩ else x.shortest layout.tie
      .ofList (sign ++ decimal.write layout)

end Binary64

end EntitySearch
