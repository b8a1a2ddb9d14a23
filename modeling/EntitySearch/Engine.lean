import EntitySearch.Cursor
import EntitySearch.Predicate.Compile
import EntitySearch.Search.Resolve

/-!
# Search engines

An engine is a schema with its grammar and a bound on the depth of payloads. It turns payloads into
searches and searches into predicates, and runs a search over records.
-/

namespace EntitySearch

structure Engine where
  schema : Schema
  grammar : Grammar
  ofSchema_eq : Grammar.ofSchema schema = .ok grammar
  /-- How many nodes there may be on the way from the root of a payload to a leaf. -/
  maxDepth : Option Nat
deriving DecidableEq

/-- Why a payload gives no predicate. -/
inductive SearchError
  | rejected (rejection : Rejection)
  | uncompilable (error : CompileError)
deriving DecidableEq

namespace SearchError

def message : SearchError → String
  | rejected rejection => Fault.listText rejection.faults
  | uncompilable error => error.stageMessage

def report : SearchError → Json
  | rejected rejection => Fault.report rejection.faults
  | uncompilable error => error.report

end SearchError

namespace Engine

def ofSchema (schema : Schema) (maxDepth : Option Nat) : Except SchemaError Engine :=
  match h : Grammar.ofSchema schema with
  | .ok grammar => .ok ⟨schema, grammar, h, maxDepth⟩
  | .error e => .error e

def resolve (g : Engine) (payload : Json) : Except Rejection Search := g.grammar.resolve g.maxDepth payload

def compileSearch (g : Engine) (search : Search) : Except CompileError Predicate := search.compile g.schema

def compile (g : Engine) (payload : Json) : Except SearchError Predicate :=
  match g.resolve payload with
  | .error rejection => .error (.rejected rejection)
  | .ok search => match g.compileSearch search with
    | .error e => .error (.uncompilable e)
    | .ok p => .ok p

end Engine

/-- The cursor over the records a search selects: those of the kind it is about, all of them if it
names none, on which the predicate is true. -/
def Search.cursor (search : Search) (p : Predicate) (records : List Record) : Cursor :=
  (Cursor.ofRecords records search.kind?).filter p

def Search.run (search : Search) (p : Predicate) (records : List Record) :
    Except CursorError (List Record) :=
  (search.cursor p records).drain.1

end EntitySearch
