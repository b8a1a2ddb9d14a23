import EntitySearch.Json.Printer

/-!
# Field values

A field of an entity has a `ScalarType` and holds a `Scalar` of that type or `null`. `Scalar.ofJson?`
reads a JSON value at a declared type without converting between types; `Scalar.toJson` is its
inverse on finite values, infinities and NaN having no JSON form.
-/

namespace EntitySearch

inductive ScalarType
  | boolean
  | int64
  | float64
  | varchar
deriving DecidableEq

namespace ScalarType

def all : List ScalarType := [boolean, int64, float64, varchar]

/-- The name of the type in a schema. -/
def name : ScalarType → String
  | boolean => "boolean"
  | int64 => "int64"
  | float64 => "float64"
  | varchar => "varchar"

/-- What an error message says is expected. -/
def text : ScalarType → String
  | varchar => "string"
  | type => type.name

end ScalarType

inductive Scalar
  | null
  | bool (value : Bool)
  | int (value : Int64)
  | float (value : Binary64)
  | string (value : String)
deriving DecidableEq, Inhabited

/-- Doubles in rendered predicates: never an exponent, integers without point, and a tie between two
shortest decimals goes away from zero. -/
def plainLayout : Layout where
  tie := .up
  positional _ := true
  pointAlways := false

namespace Scalar

/-- The type of a value, none for `null`. -/
def type? : Scalar → Option ScalarType
  | null => none
  | bool _ => some .boolean
  | int _ => some .int64
  | float _ => some .float64
  | string _ => some .varchar

/-- Whether a field of this type may hold the value. -/
def fits (value : Scalar) (type : ScalarType) : Bool :=
  match value.type? with
  | none => true
  | some t => t = type

def ofJson? (type : ScalarType) : Json → Option Scalar
  | .null => some .null
  | .bool b => if type = .boolean then some (.bool b) else none
  | .number n => match type with
    | .int64 => n.toInt64?.map .int
    | .float64 => some (.float n.toBinary64)
    | _ => none
  | .string s => if type = .varchar then some (.string s) else none
  | .array _ | .object _ => none

def toJson : Scalar → Json
  | null => .null
  | bool b => .bool b
  | int i => .number (.ofInt64 i)
  | float x => if h : x.isFinite then .number (.float x h) else .null
  | string s => .string s

/-- A string between single quotes, one inside it written twice. -/
def quoted (s : String) : String :=
  .ofList ('\'' :: s.toList.flatMap (fun c => if c = '\'' then ['\'', '\''] else [c]) ++ ['\''])

/-- The value as it stands in a rendered predicate. -/
def text : Scalar → String
  | null => "NULL"
  | bool true => "TRUE"
  | bool false => "FALSE"
  | int i => intText i.toInt
  | float x => x.write plainLayout
  | string s => quoted s

end Scalar

end EntitySearch
