import EntitySearch.Search.Basic
import EntitySearch.Search.Fault

/-!
# Forms of nodes

A node of a payload has one of the forms `not`, `or`, `and` or that of an entity kind. The form says
which tag the node carries and which fields it may have, each with a shape. `Form.read` checks a node
against a form and gives its parts: the payloads of its children, or the query it states. All faults of
a node are found, first those of its members in their order, then the required fields it lacks.
-/

namespace EntitySearch

inductive Shape
  | node
  | nodes
  | scalar (type : ScalarType)
deriving DecidableEq

namespace Shape

/-- The shape as an error message calls it. -/
def text : Shape → String
  | node => "object"
  | nodes => "array"
  | scalar type => type.text

def admits (shape : Shape) (value : Json) : Bool :=
  match shape with
  | node => value.isObject
  | nodes => value.isArray
  | scalar type => (Scalar.ofJson? type value).isSome

end Shape

structure FormField where
  name : String
  shape : Shape
  required : Bool
deriving DecidableEq

inductive Form
  | not
  | or
  | and
  | entity (kind : String) (fields : List (String × ScalarType))
deriving DecidableEq

/-- What a node of some form is made of; children are payloads still. -/
inductive Parts
  | not (child : Json)
  | or (children : List Json)
  | and (children : List Json)
  | entity (query : EntityQuery)
deriving DecidableEq

/-- Why a form refuses a node. -/
inductive Refusal
  | otherTag
  | faulty (faults : List Fault)
deriving DecidableEq

namespace Form

/-- The form of the nodes that query an entity: its searchable fields are the fields. -/
def ofEntity (e : Entity) : Form := .entity e.name (e.searchableFields.map fun f => (f.name, f.type))

def tag : Form → String
  | not => "Not"
  | or => "Or"
  | and => "And"
  | entity kind _ => kind

def fields : Form → List FormField
  | not => [⟨"child", .node, true⟩]
  | or | and => [⟨"children", .nodes, true⟩]
  | entity _ fields => fields.map fun (name, type) => ⟨name, .scalar type, false⟩

def field? (form : Form) (name : String) : Option FormField := form.fields.find? (·.name = name)

/-- What is wrong with a member. A known field that is `null` counts as absent. -/
def memberFault? (form : Form) (location : Location) (name : String) (value : Json) : Option Fault :=
  if name = tagKey then none
  else match form.field? name with
    | none => some ⟨location.member name, .unknownField form.tag name⟩
    | some field =>
      if value.isNull || field.shape.admits value then none
      else some ⟨location.member name, .wrongShape field.shape.text value⟩

def lackFault (form : Form) (location : Location) (field : String) : Fault :=
  match form with
  | not => ⟨location.member field, .missingChild⟩
  | _ => ⟨location.member field, .missingField form.tag field⟩

/-- Whether a member is absent or `null`. -/
def lacks (members : List (String × Json)) (field : String) : Bool :=
  match members.lookup field with
  | none => true
  | some value => value.isNull

def faults (form : Form) (location : Location) (members : List (String × Json)) : List Fault :=
  members.filterMap (fun (name, value) => form.memberFault? location name value) ++
    (form.fields.filter fun f => f.required && lacks members f.name).map fun f =>
      form.lackFault location f.name

/-- Takes over what a member says about a field of the query. -/
def setMember (form : Form) (query : EntityQuery) (name : String) (value : Json) : EntityQuery :=
  if name = tagKey then query
  else match form.field? name with
    | some ⟨_, .scalar type, _⟩ => match Scalar.ofJson? type value with
      | some scalar => query.set name scalar
      | none => query
    | _ => query

def query (form : Form) (members : List (String × Json)) : EntityQuery :=
  members.foldl (fun query (name, value) => form.setMember query name value) (.ofKind form.tag)

/-- The child of a node; `null` stands in when there is none. -/
def child (members : List (String × Json)) : Json := (members.lookup "child").getD .null

/-- The children of a node, none when they are not given as a list. -/
def children (members : List (String × Json)) : List Json :=
  match members.lookup "children" with
  | some (.array items) => items
  | _ => []

def parts (form : Form) (members : List (String × Json)) : Parts :=
  match form with
  | not => .not (child members)
  | or => .or (children members)
  | and => .and (children members)
  | entity .. => .entity (form.query members)

/-- The tag of a node, if it is a string. -/
def tag? (members : List (String × Json)) : Option String := (members.lookup tagKey).bind Json.string?

/-- The parts of the node at `location`. -/
def read (form : Form) (location : Location) (members : List (String × Json)) :
    Except Refusal Parts :=
  if tag? members = some form.tag then
    match form.faults location members with
    | [] => .ok (form.parts members)
    | faults => .error (.faulty faults)
  else .error .otherTag

end Form

end EntitySearch
