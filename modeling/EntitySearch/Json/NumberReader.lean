import EntitySearch.Json.Reader

/-!
# Reading numbers

`numeral` reads the text of a number and keeps its digits, `number` gives its value: an integer
without fraction and exponent that fits a signed or an unsigned word is exact, every other number is
a double, and refused when that is infinite. The double is not always the nearest one: the digits that
fit an unsigned word are rounded, and the result is multiplied with, or divided by, a power of ten
(`Numeral.toBinary64`).
-/

namespace EntitySearch

/-- The digits of a number, exponent included. -/
structure Numeral where
  negative : Bool
  whole : List Char
  fraction : List Char
  exponent : Int
  /-- Whether the number is written without a point and an exponent. -/
  isWhole : Bool

namespace Numeral

/-- All the digits, as if there were no point. -/
def significand (n : Numeral) : Nat := natOfChars (n.whole ++ n.fraction)

/-- The integer that the text gives exactly. There is no negative zero among the integers. -/
def integer? (n : Numeral) : Option Int :=
  if n.isWhole then
    if n.negative then (if n.significand = 0 then none else some (-n.significand : Int))
    else some n.significand
  else none

/-- Takes digits behind those of `n` until the next one would not fit an unsigned word any more, and
gives the number and what is left. -/
def takeWord (n : Nat) : List Char → Nat × List Char
  | [] => (n, [])
  | c :: rest =>
    if n * 10 + (c.toNat - '0'.toNat) < 0x10000000000000000 then
      takeWord (n * 10 + (c.toNat - '0'.toNat)) rest
    else (n, c :: rest)

/-- The digits that are kept, as if there were no point, and the power of ten that stands behind them. Whole
digits that are not kept count as zeros; digits of the fraction are taken for what they are again. -/
def kept (n : Numeral) : Nat × Int :=
  let (whole, zeros) := takeWord 0 n.whole
  let (word, left) := takeWord whole n.fraction
  (word, n.exponent + zeros.length - (n.fraction.length - left.length))

/-- The double that is calculated from the digits that are kept. An exponent has to fit a signed word of
thirty-two bits. -/
def toBinary64 (n : Numeral) : Binary64 :=
  let (word, exponent) := n.kept
  if word = 0 ∨ n.exponent < -0x7fffffff then .zero n.negative
  else if 0x7fffffff < n.exponent then .infinity n.negative
  else (Binary64.ofRatio n.negative word 1).scaleByTen exponent

def value? (n : Numeral) : Option JsonNumber :=
  let rounded : Option JsonNumber :=
    if h : n.toBinary64.isFinite then some (.float n.toBinary64 h) else none
  match n.integer? with
  | some i =>
    if h : -0x8000000000000000 ≤ i ∧ i < 0x10000000000000000 then some (.int i h.1 h.2) else rounded
  | none => rounded

end Numeral

namespace Reader

def isDigit (c : Char) : Bool := '0' ≤ c && c ≤ '9'

/-- One digit or more; `atEnd` when the text ends before the first. -/
def digits (atEnd : ReadError) : Reader (List Char) := do
  match ← peek? with
  | none => fail atEnd
  | some c => if isDigit c then takeAll isDigit else fail .invalidNumber

/-- Digits that do not begin with a zero, or a zero alone. -/
def wholeDigits (atEnd : ReadError) : Reader (List Char) := do
  let ds ← digits atEnd
  if ds.head? = some '0' ∧ ds.length ≠ 1 then fail .invalidNumber else return ds

/-- The digits after a point, if a point is next. -/
def fractionDigits? (atEnd : ReadError) : Reader (Option (List Char)) := do
  if (← peek?) = some '.' then
    let _ ← next?
    return some (← digits atEnd)
  else return none

def exponent? (atEnd : ReadError) : Reader (Option Int) := do
  match ← peek? with
  | some 'e' | some 'E' =>
    let _ ← next?
    match ← peek? with
    | some '-' =>
      let _ ← next?
      return some (-natOfChars (← digits atEnd) : Int)
    | some '+' =>
      let _ ← next?
      return some (natOfChars (← digits atEnd) : Int)
    | _ => return some (natOfChars (← digits atEnd) : Int)
  | _ => return none

/-- The text of a number; `atEnd` when it ends where a digit has to come. -/
def numeral (atEnd : ReadError) : Reader Numeral := do
  let negative := (← peek?) = some '-'
  if negative then
    let _ ← next?
  let whole ← wholeDigits atEnd
  let fraction? ← fractionDigits? atEnd
  let exponent? ← exponent? atEnd
  return ⟨negative, whole, fraction?.getD [], exponent?.getD 0, fraction?.isNone && exponent?.isNone⟩

def number : Reader JsonNumber := do
  match (← numeral (.endOfText .value)).value? with
  | some n => return n
  | none => fail .numberOutOfRange

/-- The double before this one is nearer. -/
example : (number.run "1.1e-30".toList).toOption.map Prod.fst =
    some (.float ⟨0x39b64f86cb9cefb0⟩ (by decide)) := by
  decide +kernel

def skipNumber : Reader Unit := do
  let _ ← numeral .invalidNumber

end Reader
end EntitySearch
