import EntitySearch.Predicate.Basic

/-!
# Writing predicates

`Predicate.text` is the form for people: conjunctions and disjunctions are put between parentheses
wherever they are operands. `Predicate.toJson` is the form for programs.
-/

namespace EntitySearch

def FieldTest.chars (t : FieldTest) : List Char :=
  t.kind.toList ++ '.' :: t.field.toList ++ " = ".toList ++ t.value.text.toList

def FieldTest.toJson (t : FieldTest) : Json :=
  .object [("entity_kind", .string t.kind), ("field", .string t.field), ("value", t.value.toJson)]

namespace Predicate

/-- Whether the predicate is put between parentheses as an operand. -/
def isJoined : Predicate → Bool
  | and _ | or _ => true
  | _ => false

mutual

def chars : Predicate → List Char
  | always => "TRUE".toList
  | never => "FALSE".toList
  | test t => t.chars
  | not p => "NOT ".toList ++ p.operandChars
  | and [] => "AND()".toList
  | or [] => "OR()".toList
  | and (p :: ps) => p.operandChars ++ laterChars " AND ".toList ps
  | or (p :: ps) => p.operandChars ++ laterChars " OR ".toList ps

def operandChars (p : Predicate) : List Char := if p.isJoined then '(' :: p.chars ++ [')'] else p.chars

/-- The operands after the first one, each with the operator before it. -/
def laterChars (operator : List Char) : List Predicate → List Char
  | [] => []
  | p :: ps => operator ++ p.operandChars ++ laterChars operator ps

end

def text (p : Predicate) : String := .ofList p.chars

mutual

def toJson : Predicate → Json
  | always => .string "True"
  | never => .string "False"
  | test t => .object [("FieldEquals", t.toJson)]
  | not p => .object [("Not", p.toJson)]
  | and ps => .object [("And", .array (toJsonList ps))]
  | or ps => .object [("Or", .array (toJsonList ps))]

def toJsonList : List Predicate → List Json
  | [] => []
  | p :: ps => p.toJson :: toJsonList ps

end

end Predicate

end EntitySearch
