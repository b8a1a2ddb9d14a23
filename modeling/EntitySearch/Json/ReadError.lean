import EntitySearch.Json.Printer
import EntitySearch.Text.Quoted

/-!
# Why a text cannot be read

The causes a reader of JSON texts can stop for, and their wording. The first group belongs to the
syntax of JSON, the second to texts that are JSON but not of the form their reader asks for.
-/

namespace EntitySearch

/-- What the text ends inside of. -/
inductive Unfinished
  | value
  | list
  | object
  | string
deriving DecidableEq

def Unfinished.text : Unfinished → String
  | value => "a value"
  | list => "a list"
  | object => "an object"
  | string => "a string"

/-- What stands in the place of a value of another type; of a list or an object only that it is
one. -/
inductive Found
  | null
  | bool (value : Bool)
  | number (value : JsonNumber)
  | string (value : String)
  | list
  | object
deriving DecidableEq

def Found.text : Found → String
  | null => "null"
  | bool value => "boolean `" ++ (if value then "true" else "false") ++ "`"
  | number (.int value _ _) => "integer `" ++ intText value ++ "`"
  | number (.float value _) => "floating point `" ++ value.write jsonLayout ++ "`"
  | string value => "string " ++ quotedText value
  | list => "sequence"
  | object => "map"

inductive ReadError
  | endOfText (inside : Unfinished)
  | expectedValue
  | expectedIdent
  | expectedColon
  | expectedCommaOrBracket
  | expectedCommaOrBrace
  | trailingComma
  | trailingCharacters
  | keyMustBeString
  | invalidNumber
  | numberOutOfRange
  | invalidEscape
  | loneSurrogate
  | unfinishedSurrogatePair
  | controlCharacter
  | nestedTooDeep
  | missingMember (name : String)
  | repeatedMember (name : String)
  | unknownName (name : String) (known : List String)
  | wrongType (found : Found) (expected : String)
  | wrongLength (length : Nat) (expected : String)
  | notScalar
deriving DecidableEq

def named (name : String) : String := "`" ++ name ++ "`"

def ReadError.message : ReadError → String
  | endOfText inside => "EOF while parsing " ++ inside.text
  | expectedValue => "expected value"
  | expectedIdent => "expected ident"
  | expectedColon => "expected `:`"
  | expectedCommaOrBracket => "expected `,` or `]`"
  | expectedCommaOrBrace => "expected `,` or `\x7d`"
  | trailingComma => "trailing comma"
  | trailingCharacters => "trailing characters"
  | keyMustBeString => "key must be a string"
  | invalidNumber => "invalid number"
  | numberOutOfRange => "number out of range"
  | invalidEscape => "invalid escape"
  | loneSurrogate => "lone leading surrogate in hex escape"
  | unfinishedSurrogatePair => "unexpected end of hex escape"
  | controlCharacter => "control character (\\u0000-\\u001F) found while parsing a string"
  | nestedTooDeep => "recursion limit exceeded"
  | missingMember name => "missing field " ++ named name
  | repeatedMember name => "duplicate field " ++ named name
  | unknownName name known =>
    "unknown variant " ++ named name ++ ", expected one of " ++ ", ".intercalate (known.map named)
  | wrongType found expected => "invalid type: " ++ found.text ++ ", expected " ++ expected
  | wrongLength length expected => "invalid length " ++ natText length ++ ", expected " ++ expected
  | notScalar => "data did not match any variant of untagged enum Value"

end EntitySearch
