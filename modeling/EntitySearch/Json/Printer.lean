import EntitySearch.Json.Basic
import EntitySearch.Number.Layout

/-!
# Writing JSON

`Json.compact` writes a value without blanks, `Json.pretty` over several lines with two blanks per
level. In strings only the quote, the backslash and the characters below the blank are escaped.
-/

namespace EntitySearch

/-- Doubles in JSON texts: a leading digit between `1e-5` and `1e15` is written without exponent,
integers with a `.0`, and a tie between two shortest decimals goes to the even one. -/
def jsonLayout : Layout where
  tie := .toEven
  positional power := -5 ≤ power ∧ power ≤ 15
  pointAlways := true

namespace Json

def hexDigits (n : Nat) : List Char := [Nat.digitChar (n / 16 % 16), Nat.digitChar (n % 16)]

def escape (c : Char) : List Char :=
  if c = '"' then ['\\', '"']
  else if c = '\\' then ['\\', '\\']
  else if c = '\x08' then ['\\', 'b']
  else if c = '\x0c' then ['\\', 'f']
  else if c = '\n' then ['\\', 'n']
  else if c = '\r' then ['\\', 'r']
  else if c = '\t' then ['\\', 't']
  else if c < ' ' then ['\\', 'u', '0', '0'] ++ hexDigits c.toNat
  else [c]

def quote (s : String) : List Char := '"' :: s.toList.flatMap escape ++ ['"']

end Json

def JsonNumber.chars : JsonNumber → List Char
  | .int value _ _ => intChars value
  | .float value _ => (value.write jsonLayout).toList

namespace Json

/-- The text of a value that holds no other. -/
def scalarChars : Json → List Char
  | null => "null".toList
  | bool true => "true".toList
  | bool false => "false".toList
  | number n => n.chars
  | string s => quote s
  | array _ | object _ => []

mutual

def compactChars : Json → List Char
  | array items => '[' :: compactItems items ++ [']']
  | object members => '{' :: compactMembers members ++ ['}']
  | scalar => scalar.scalarChars

def compactItems : List Json → List Char
  | [] => []
  | [item] => item.compactChars
  | item :: rest => item.compactChars ++ ',' :: compactItems rest

def compactMembers : List (String × Json) → List Char
  | [] => []
  | [(name, value)] => quote name ++ ':' :: value.compactChars
  | (name, value) :: rest => quote name ++ ':' :: value.compactChars ++ ',' :: compactMembers rest

end

def compact (j : Json) : String := .ofList j.compactChars

/-- A line break and the blanks before a line at this level. -/
def newline (level : Nat) : List Char := '\n' :: List.replicate (2 * level) ' '

mutual

def prettyChars (level : Nat) : Json → List Char
  | array [] => ['[', ']']
  | object [] => ['{', '}']
  | array items => '[' :: prettyItems (level + 1) items ++ newline level ++ [']']
  | object members => '{' :: prettyMembers (level + 1) members ++ newline level ++ ['}']
  | scalar => scalar.scalarChars

def prettyItems (level : Nat) : List Json → List Char
  | [] => []
  | [item] => newline level ++ item.prettyChars level
  | item :: rest => newline level ++ item.prettyChars level ++ ',' :: prettyItems level rest

def prettyMembers (level : Nat) : List (String × Json) → List Char
  | [] => []
  | [(name, value)] => newline level ++ quote name ++ ':' :: ' ' :: value.prettyChars level
  | (name, value) :: rest =>
    newline level ++ quote name ++ ':' :: ' ' :: value.prettyChars level ++
      ',' :: prettyMembers level rest

end

def pretty (j : Json) : String := .ofList (j.prettyChars 0)

end Json

end EntitySearch
