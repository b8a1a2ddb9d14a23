import EntitySearch.Predicate.Basic
import EntitySearch.Search.Basic

/-!
# From searches to predicates

An entity query becomes the conjunction of one test per wish, in the order of the schema's fields; the
operators become those of predicates. A search that does not fit the schema is refused: entity queries
are looked at from left to right, and the wishes of one query by name.
-/

namespace EntitySearch

inductive CompileError
  | unknownEntity (kind : String)
  | unknownField (entity field : String)
  | wrongType (entity field : String) (expected : ScalarType) (actual : Option ScalarType)
deriving DecidableEq

/-- The name of the type of a value that does not fit. -/
def ScalarType.label : ScalarType → String
  | boolean => "Boolean"
  | int64 => "Int64"
  | float64 => "Float64"
  | varchar => "Varchar"

namespace CompileError

def message : CompileError → String
  | unknownEntity kind => "Unknown entity kind: " ++ kind
  | unknownField entity field => "Entity " ++ entity ++ " has no searchable field " ++ field
  | wrongType entity field expected actual =>
    "Field " ++ entity ++ "." ++ field ++ " expects " ++ expected.text ++ ", got " ++
      match actual with
      | none => "None"
      | some type => "Some(" ++ type.label ++ ")"

/-- The wording where an error may also be of another stage. -/
def stageMessage (e : CompileError) : String := "Compile error: " ++ e.message

def report (e : CompileError) : Json := .object [("compile_error", .string e.message)]

end CompileError

namespace EntityQuery

/-- What is wrong with a wish. -/
def wishError? (e : Entity) (field : String) (value : Scalar) : Option CompileError :=
  match e.searchableField? field with
  | none => some (.unknownField e.name field)
  | some f => if value.fits f.type then none else some (.wrongType e.name field f.type value.type?)

/-- One test per wish, in the order of the entity's fields. -/
def tests (q : EntityQuery) (e : Entity) : List FieldTest :=
  e.searchableFields.filterMap fun f => (q.get? f.name).map fun value => ⟨q.kind, f.name, value⟩

def compile (schema : Schema) (q : EntityQuery) : Except CompileError Predicate :=
  match schema.entity? q.kind with
  | none => .error (.unknownEntity q.kind)
  | some e => match q.wanted.entries.findSome? fun (field, value) => wishError? e field value with
    | some error => .error error
    | none => .ok (.conjunction ((q.tests e).map .test))

end EntityQuery

namespace Search

mutual

def compile (schema : Schema) : Search → Except CompileError Predicate
  | not child => (child.compile schema).map .not
  | and children => (compileList schema children).map .conjunction
  | or children => (compileList schema children).map .disjunction
  | entity query => query.compile schema

def compileList (schema : Schema) : List Search → Except CompileError (List Predicate)
  | [] => .ok []
  | t :: ts => match t.compile schema with
    | .error e => .error e
    | .ok p => (compileList schema ts).map (p :: ·)

end

end Search

end EntitySearch
