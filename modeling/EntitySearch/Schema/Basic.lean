import EntitySearch.Scalar

/-!
# Schemas

A schema lists the kinds of entities with their fields. Kinds are named and differ, the fields of an
entity differ, and none has the name of the member that carries the kind (`tagKey`).
`Schema.ofEntities` refuses a list at the first entity that breaks one of these rules, and within an
entity at the first field that does.
-/

namespace EntitySearch

/-- The member of a payload or record object that tells what the object is. -/
def tagKey : String := "type"

structure Field where
  name : String
  type : ScalarType
  /-- Whether a search may name the field; a record may hold it in any case. -/
  searchable : Bool := true
deriving DecidableEq

structure Entity where
  name : String
  fields : List Field
deriving DecidableEq

namespace Entity

def field? (e : Entity) (name : String) : Option Field := e.fields.find? (·.name = name)

def searchableFields (e : Entity) : List Field := e.fields.filter (·.searchable)

def searchableField? (e : Entity) (name : String) : Option Field :=
  (e.field? name).filter (·.searchable)

end Entity

/-- What is wrong with a list of entities or of node forms. -/
inductive SchemaError
  | unnamedEntity
  | repeatedEntity (entity : String)
  | reservedField (entity field : String)
  | repeatedField (entity field : String)
  | repeatedTag (tag : String)
deriving DecidableEq

def SchemaError.message : SchemaError → String
  | unnamedEntity => "Entity kind name must not be empty"
  | repeatedEntity entity => "Entity kind " ++ entity ++ " is registered more than once"
  | reservedField entity field => "Entity " ++ entity ++ " declares reserved field name " ++ field
  | repeatedField entity field => "Entity " ++ entity ++ " declares field " ++ field ++ " more than once"
  | repeatedTag tag => "Variant tag " ++ tag ++ " is used by more than one search node variant"

namespace Entity

/-- The first fault of a list of fields that follow fields with the names `before`. -/
def fieldFault? (entity : String) (before : List String) : List Field → Option SchemaError
  | [] => none
  | f :: rest =>
    if f.name = tagKey then some (.reservedField entity f.name)
    else if f.name ∈ before then some (.repeatedField entity f.name)
    else fieldFault? entity (f.name :: before) rest

/-- The first fault of a list of entities that follow entities with the names `before`. -/
def fault? (before : List String) : List Entity → Option SchemaError
  | [] => none
  | e :: rest =>
    if e.name = "" then some .unnamedEntity
    else if e.name ∈ before then some (.repeatedEntity e.name)
    else match fieldFault? e.name [] e.fields with
      | some fault => some fault
      | none => fault? (e.name :: before) rest

end Entity

structure Schema where
  entities : List Entity
  faultless : Entity.fault? [] entities = none
deriving DecidableEq

namespace Schema

def ofEntities (entities : List Entity) : Except SchemaError Schema :=
  match h : Entity.fault? [] entities with
  | none => .ok ⟨entities, h⟩
  | some fault => .error fault

def entity? (s : Schema) (name : String) : Option Entity := s.entities.find? (·.name = name)

def size (s : Schema) : Nat := s.entities.length

def isEmpty (s : Schema) : Bool := s.entities.isEmpty

/-- Users and the companies they work for, passwords and addresses not being searchable. -/
def usersAndCompanies : Schema where
  entities := [
    ⟨"User", [
      ⟨"id", .int64, true⟩,
      ⟨"first_name", .varchar, true⟩,
      ⟨"last_name", .varchar, true⟩,
      ⟨"email", .varchar, true⟩,
      ⟨"company_id", .int64, true⟩,
      ⟨"hashed_password", .varchar, false⟩]⟩,
    ⟨"Company", [
      ⟨"id", .int64, true⟩,
      ⟨"name", .varchar, true⟩,
      ⟨"address", .varchar, false⟩]⟩]
  faultless := by decide

end Schema

end EntitySearch
