import EntitySearch.Json.Printer
import EntitySearch.Search.Location

/-!
# What is wrong with a payload

A `Fault` blames the value at one place of a payload. Besides its wording it has a code for programs.
-/

namespace EntitySearch

inductive Cause
  | notAnObject (received : Json)
  | missingTag
  | unknownTag (seen : String) (tried : List String)
  | unknownField (node field : String)
  | wrongShape (expected : String) (received : Json)
  | missingField (node field : String)
  | missingChild
  | tooDeep (limit : Nat)
deriving DecidableEq

namespace Cause

def code : Cause → String
  | notAnObject _ => "NotAnObject"
  | missingTag => "MissingDiscriminator"
  | unknownTag .. => "NoMatchingVariant"
  | unknownField .. => "UnknownField"
  | wrongShape .. => "FieldTypeMismatch"
  | missingField .. => "MissingField"
  | missingChild => "EmptyRequiredChild"
  | tooDeep _ => "DepthLimitExceeded"

def message : Cause → String
  | notAnObject received => "expected a search node object, received " ++ received.compact
  | missingTag => "'type' must be set for all search nodes"
  | unknownTag seen tried =>
    "no search node variant matches type '" ++ seen ++ "' (tried: " ++ ", ".intercalate tried ++
      "; each accepts only its own tag)"
  | unknownField node field => "unknown field '" ++ field ++ "' for " ++ node ++ " node"
  | wrongShape expected received => "expected " ++ expected ++ ", received " ++ received.compact
  | missingField node field => "missing required field '" ++ field ++ "' for " ++ node ++ " node"
  | missingChild => "Not node requires exactly one child"
  | tooDeep limit => "search tree is nested deeper than the limit of " ++ natText limit

end Cause

structure Fault where
  location : Location
  cause : Cause
deriving DecidableEq

namespace Fault

def text (f : Fault) : String := f.location.text ++ ": " ++ f.cause.message

def listText (faults : List Fault) : String := "; ".intercalate (faults.map text)

def toJson (f : Fault) : Json :=
  .object [
    ("path", .string f.location.text),
    ("kind", .string f.cause.code),
    ("message", .string f.cause.message)]

/-- What a caller gets who reports the faults of a payload as JSON. -/
def report (faults : List Fault) : Json := .object [("resolve_errors", .array (faults.map toJson))]

end Fault

end EntitySearch
