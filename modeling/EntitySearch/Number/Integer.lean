/-!
# Integers in decimal
-/

namespace EntitySearch

/-- Decimal digits without leading zeros; zero is `0`. -/
def natChars (n : Nat) : List Char := Nat.toDigits 10 n

def intChars (i : Int) : List Char :=
  if i < 0 then '-' :: natChars i.natAbs else natChars i.natAbs

/-- The number that decimal digits stand for. -/
def natOfChars (ds : List Char) : Nat := ds.foldl (fun n d => n * 10 + (d.toNat - '0'.toNat)) 0

def natText (n : Nat) : String := .ofList (natChars n)

def intText (i : Int) : String := .ofList (intChars i)

end EntitySearch
