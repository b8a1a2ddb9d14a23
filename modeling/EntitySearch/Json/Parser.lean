import EntitySearch.Json.NumberReader
import EntitySearch.Json.StringReader

/-!
# Reading values

`Json.parse` reads a text that holds one JSON value. Lists and objects may be nested in each other up
to `maxNesting` levels; the value reader recurses on the levels that are left.
-/

namespace EntitySearch

/-- How many lists and objects may be open at once. -/
def maxNesting : Nat := 127

namespace Reader

/-- The value of a member is put among the members read before it. -/
def objectMember (value : Reader Json) (before : List (String × Json)) (name : String) :
    Reader (List (String × Json)) := do
  colon
  return Json.put name (← value) before

/-- A value with `levels` more levels of nesting allowed. -/
def value (levels : Nat) : Reader Json := do
  match ← peekVisible? with
  | none => fail (.endOfText .value)
  | some 'n' =>
    word "null".toList
    return .null
  | some 't' =>
    word "true".toList
    return .bool true
  | some 'f' =>
    word "false".toList
    return .bool false
  | some '"' =>
    let _ ← next?
    return .string (← stringBody)
  | some '[' =>
    match levels with
    | 0 => fail .nestedTooDeep
    | levels + 1 =>
      let _ ← next?
      return .array (← items (value levels))
  | some '{' =>
    match levels with
    | 0 => fail .nestedTooDeep
    | levels + 1 =>
      let _ ← next?
      return .object (← members stringBody (objectMember (value levels)) [])
  | some c =>
    if c = '-' || isDigit c then return .number (← number) else fail .expectedValue

end Reader

namespace Json

def parse (text : String) : Except ReadError Json := (Reader.value maxNesting).readAll text

end Json

end EntitySearch
