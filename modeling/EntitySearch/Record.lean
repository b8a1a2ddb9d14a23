import EntitySearch.FieldMap
import EntitySearch.Schema.Basic

/-!
# Records

A record is a stored entity: its kind and the values of its columns. A column that is not stored reads
as `null`. A record is read from a JSON object at the types its schema declares, whether the fields
are searchable or not.
-/

namespace EntitySearch

structure Record where
  kind : String
  columns : FieldMap Scalar
deriving DecidableEq

inductive RecordError
  | notAnObject (received : Json)
  | missingKind
  | unknownKind (kind : String)
  | unknownField (kind field : String)
  | wrongType (kind field : String) (expected : ScalarType) (received : Json)
deriving DecidableEq

def RecordError.message : RecordError → String
  | notAnObject received => "Record must be a JSON object, got " ++ received.compact
  | missingKind => "Record is missing a string '" ++ tagKey ++ "' field"
  | unknownKind kind => "Unknown entity kind: " ++ kind
  | unknownField kind field => "Entity " ++ kind ++ " has no field named " ++ field
  | wrongType kind field expected received =>
    "Field " ++ kind ++ "." ++ field ++ " expects " ++ expected.text ++ ", got " ++ received.compact

/-- Why a list of records cannot be read. -/
inductive RecordsError
  | notAnArray
  | item (index : Nat) (error : RecordError)
deriving DecidableEq

/-- The messages from the outermost cause to the innermost one. -/
def RecordsError.messages : RecordsError → List String
  | notAnArray => ["Expected a JSON array of records"]
  | item index error => ["Invalid record #" ++ natText index, error.message]

def RecordsError.text (e : RecordsError) : String := ": ".intercalate e.messages

namespace Record

def ofKind (kind : String) : Record := ⟨kind, ∅⟩

def set (r : Record) (field : String) (value : Scalar) : Record :=
  { r with columns := r.columns.insert field value }

def get (r : Record) (field : String) : Scalar := (r.columns.get? field).getD .null

/-- Adds the columns given by the members of an object; `null` gives none. -/
def setMembers (e : Entity) (r : Record) : List (String × Json) → Except RecordError Record
  | [] => .ok r
  | (name, value) :: rest =>
    if name = tagKey then setMembers e r rest
    else match e.field? name with
      | none => .error (.unknownField e.name name)
      | some field => match Scalar.ofJson? field.type value with
        | none => .error (.wrongType e.name name field.type value)
        | some .null => setMembers e r rest
        | some scalar => setMembers e (r.set name scalar) rest

def ofJson (schema : Schema) (json : Json) : Except RecordError Record :=
  match json with
  | .object members => match members.lookup tagKey with
    | some (.string kind) => match schema.entity? kind with
      | none => .error (.unknownKind kind)
      | some e => setMembers e (.ofKind kind) members
    | _ => .error .missingKind
  | other => .error (.notAnObject other)

/-- The records of a list whose first item has the given index. -/
def ofItems (schema : Schema) (index : Nat) : List Json → Except RecordsError (List Record)
  | [] => .ok []
  | item :: rest => match ofJson schema item with
    | .error e => .error (.item index e)
    | .ok r => (ofItems schema (index + 1) rest).map (r :: ·)

def listOfJson (schema : Schema) (json : Json) : Except RecordsError (List Record) :=
  match json with
  | .array items => ofItems schema 0 items
  | _ => .error .notAnArray

/-- The kind, then the columns by name. A column with the name of the tag would take the place of the
kind. -/
def toJson (r : Record) : Json :=
  .object (r.columns.entries.foldl (fun members (field, value) => Json.put field value.toJson members)
    [(tagKey, .string r.kind)])

end Record

end EntitySearch
