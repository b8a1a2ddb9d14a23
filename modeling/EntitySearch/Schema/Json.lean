import EntitySearch.Json.Skip
import EntitySearch.Schema.Basic

/-!
# Schemas as JSON texts

A schema is written as `{"entities":[…]}`, an entity with `name` and `fields`, a field with `name`,
`type` and `searchable`. The readers here read such a text directly and stop at its first fault. They
are liberal in three ways: members they do not know are passed over, an object may also be given as
the list of its members' values in order, and a type `t` may also be given as `{"t":null}`.

Each object is read into a draft, which holds the members read so far; a member given twice is refused
at its second name.
-/

namespace EntitySearch

namespace Reader
variable {α σ : Type}

/-- Refuses a value of another type. A value that holds no other is read, so that an error within it
comes first. -/
def refuse (expected : String) : Reader α := do
  match ← peekVisible? with
  | none => fail (.endOfText .value)
  | some 'n' =>
    word "null".toList
    fail (.wrongType .null expected)
  | some 't' =>
    word "true".toList
    fail (.wrongType (.bool true) expected)
  | some 'f' =>
    word "false".toList
    fail (.wrongType (.bool false) expected)
  | some '"' =>
    let _ ← next?
    fail (.wrongType (.string (← stringBody)) expected)
  | some '[' => fail (.wrongType .list expected)
  | some '{' => fail (.wrongType .object expected)
  | some c =>
    if c = '-' || isDigit c then fail (.wrongType (.number (← number)) expected)
    else fail .expectedValue

def string : Reader String := do
  if (← peekVisible?) = some '"' then
    let _ ← next?
    stringBody
  else refuse "a string"

def bool : Reader Bool := do
  match ← peekVisible? with
  | some 't' =>
    word "true".toList
    return true
  | some 'f' =>
    word "false".toList
    return false
  | _ => refuse "a boolean"

def unit : Reader Unit := do
  if (← peekVisible?) = some 'n' then word "null".toList else refuse "unit"

def list (item : Reader α) : Reader (List α) := do
  if (← peekVisible?) = some '[' then
    let _ ← next?
    items item
  else refuse "a sequence"

/-- A value given as an object or as the list of its members' values. -/
def record (expected : String) (asList : Reader α) (member : σ → String → Reader σ) (start : σ)
    (finish : σ → Except ReadError α) : Reader α := do
  match ← peekVisible? with
  | some '[' =>
    let _ ← next?
    asList
  | some '{' =>
    let _ ← next?
    match finish (← members stringBody member start) with
    | .ok a => return a
    | .error e => fail e
  | _ => refuse expected

/-- The value of the member `name`, which must not have been given `before`. -/
def member (name : String) (before : Option α) (value : Reader α) : Reader α := do
  if before.isSome then fail (.repeatedMember name)
  else
    colon
    value

/-- A member without meaning. -/
def skipMember : Reader Unit := do
  colon
  skipValue

end Reader

namespace ScalarType

def ofName? (name : String) : Option ScalarType := all.find? (·.name = name)

/-- The type with the name that follows an opening quote. -/
def nameReader : Reader ScalarType := do
  let name ← Reader.stringBody
  match ofName? name with
  | some type => return type
  | none => .fail (.unknownName name (all.map ScalarType.name))

/-- What follows the opening brace of a type given as an object: its name and `null`. -/
def objectReader : Reader ScalarType := do
  Reader.blanks
  match ← Reader.next (.endOfText .object) with
  | '"' =>
    let type ← nameReader
    Reader.colon
    Reader.unit
    Reader.blanks
    if (← Reader.next (.endOfText .object)) = '\x7d' then return type else .fail .expectedValue
  | '\x7d' => .fail .expectedValue
  | _ => .fail .keyMustBeString

def reader : Reader ScalarType := do
  Reader.blanks
  match ← Reader.next (.endOfText .value) with
  | '"' => nameReader
  | '{' => objectReader
  | _ => .fail .expectedValue

def parse (text : String) : Except ReadError ScalarType := reader.readAll text

end ScalarType

/-- The given value of a member, or the error that it is missing. -/
def requireMember {α : Type} (name : String) (value : Option α) : Except ReadError α :=
  match value with
  | some a => .ok a
  | none => .error (.missingMember name)

namespace Field

structure Draft where
  name : Option String := none
  type : Option ScalarType := none
  searchable : Option Bool := none

namespace Draft

def member (d : Draft) (name : String) : Reader Draft := do
  if name = "name" then return { d with name := ← .member name d.name .string }
  else if name = "type" then return { d with type := ← .member name d.type ScalarType.reader }
  else if name = "searchable" then return { d with searchable := ← .member name d.searchable .bool }
  else
    Reader.skipMember
    return d

def finish (d : Draft) : Except ReadError Field := do
  return ⟨← requireMember "name" d.name, ← requireMember "type" d.type, d.searchable.getD true⟩

end Draft

def listReader : Reader Field := do
  let tooShort := fun n => ReadError.wrongLength n "struct FieldInfo with 3 elements"
  let some name ← Reader.firstItem? .string | .fail (tooShort 0)
  let some type ← Reader.laterItem? ScalarType.reader | .fail (tooShort 1)
  match ← Reader.laterItem? .bool with
  | none => return ⟨name, type, true⟩
  | some searchable =>
    Reader.closeList
    return ⟨name, type, searchable⟩

def reader : Reader Field := .record "struct FieldInfo" listReader Draft.member {} Draft.finish

def toJson (f : Field) : Json :=
  .object [("name", .string f.name), ("type", .string f.type.name), ("searchable", .bool f.searchable)]

end Field

namespace Entity

structure Draft where
  name : Option String := none
  fields : Option (List Field) := none

namespace Draft

def member (d : Draft) (name : String) : Reader Draft := do
  if name = "name" then return { d with name := ← .member name d.name .string }
  else if name = "fields" then return { d with fields := ← .member name d.fields (.list Field.reader) }
  else
    Reader.skipMember
    return d

def finish (d : Draft) : Except ReadError Entity := do
  return ⟨← requireMember "name" d.name, ← requireMember "fields" d.fields⟩

end Draft

def listReader : Reader Entity := do
  let tooShort := fun n => ReadError.wrongLength n "struct EntitySchema with 2 elements"
  let some name ← Reader.firstItem? .string | .fail (tooShort 0)
  let some fields ← Reader.laterItem? (.list Field.reader) | .fail (tooShort 1)
  Reader.closeList
  return ⟨name, fields⟩

def reader : Reader Entity := .record "struct EntitySchema" listReader Draft.member {} Draft.finish

def parse (text : String) : Except ReadError Entity := reader.readAll text

def toJson (e : Entity) : Json :=
  .object [("name", .string e.name), ("fields", .array (e.fields.map Field.toJson))]

end Entity

namespace Schema

/-- Why a text gives no schema. -/
inductive LoadError
  | unreadable (error : ReadError)
  | refused (error : SchemaError)
deriving DecidableEq

def LoadError.message : LoadError → String
  | unreadable error => "Invalid registry JSON: " ++ error.message
  | refused error => error.message

def listReader : Reader (List Entity) := do
  match ← Reader.firstItem? (.list Entity.reader) with
  | none => .fail (.wrongLength 0 "struct RegistryFile with 1 element")
  | some entities =>
    Reader.closeList
    return entities

def member (entities : Option (List Entity)) (name : String) : Reader (Option (List Entity)) := do
  if name = "entities" then return some (← .member name entities (.list Entity.reader))
  else
    Reader.skipMember
    return entities

/-- The entities of a schema, not checked against each other. -/
def entitiesReader : Reader (List Entity) :=
  .record "struct RegistryFile" listReader member none (requireMember "entities")

def parse (text : String) : Except LoadError Schema :=
  match entitiesReader.readAll text with
  | .error e => .error (.unreadable e)
  | .ok entities => match ofEntities entities with
    | .error e => .error (.refused e)
    | .ok schema => .ok schema

def toJson (s : Schema) : Json := .object [("entities", .array (s.entities.map Entity.toJson))]

end Schema

end EntitySearch
