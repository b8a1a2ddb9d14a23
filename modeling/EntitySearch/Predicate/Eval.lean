import EntitySearch.Predicate.Basic
import EntitySearch.Record

/-!
# Evaluating predicates

A predicate is true, false or unknown of a record: a test of a column that is `null` is unknown, and
negation, conjunction and disjunction follow the strong logic of three values. Operands are looked at
from left to right until the result is settled, so that an error in an operand counts only when the
operand is reached.
-/

namespace EntitySearch

inductive Truth
  | false
  | unknown
  | true
deriving DecidableEq

namespace Truth

def ofBool (b : Bool) : Truth := if b then true else false

def neg : Truth → Truth
  | false => true
  | unknown => unknown
  | true => false

/-- The truth as the value of a field. -/
def toScalar : Truth → Scalar
  | false => .bool .false
  | unknown => .null
  | true => .bool .true

end Truth

inductive EvalError
  | otherKind (expected actual : String)
  | incomparable (field : String) (left right : Scalar)
deriving DecidableEq

def EvalError.message : EvalError → String
  | otherKind expected actual =>
    "Predicate tests " ++ expected ++ " fields but record is a " ++ actual
  | incomparable field left right =>
    "Cannot compare field " ++ field ++ " value " ++ left.text ++ " with " ++ right.text

/-- Whether two values that are not `null` are equal, if values of their types can be compared. An
integer is compared with a double as the double nearest to it. -/
def Scalar.equals? : Scalar → Scalar → Option Bool
  | bool a, bool b => some (a = b)
  | int a, int b => some (a = b)
  | float a, float b => some (a.numEq b)
  | int a, float b => some ((Binary64.ofInt a.toInt).numEq b)
  | float a, int b => some (a.numEq (.ofInt b.toInt))
  | string a, string b => some (a = b)
  | _, _ => none

def FieldTest.eval (t : FieldTest) (r : Record) : Except EvalError Truth :=
  if t.kind = r.kind then
    let value := r.get t.field
    if value = .null ∨ t.value = .null then .ok .unknown
    else match value.equals? t.value with
      | some b => .ok (.ofBool b)
      | none => .error (.incomparable t.field value t.value)
  else .error (.otherKind t.kind r.kind)

namespace Predicate

mutual

def eval (r : Record) : Predicate → Except EvalError Truth
  | always => .ok .true
  | never => .ok .false
  | test t => t.eval r
  | not p => (p.eval r).map .neg
  | and ps => evalAll r .true ps
  | or ps => evalAny r .false ps

/-- The conjunction of the operands, with `unknown` for `sofar` once an operand was unknown. -/
def evalAll (r : Record) (sofar : Truth) : List Predicate → Except EvalError Truth
  | [] => .ok sofar
  | p :: ps => match p.eval r with
    | .error e => .error e
    | .ok .false => .ok .false
    | .ok .true => evalAll r sofar ps
    | .ok .unknown => evalAll r .unknown ps

/-- The disjunction of the operands, with `unknown` for `sofar` once an operand was unknown. -/
def evalAny (r : Record) (sofar : Truth) : List Predicate → Except EvalError Truth
  | [] => .ok sofar
  | p :: ps => match p.eval r with
    | .error e => .error e
    | .ok .true => .ok .true
    | .ok .false => evalAny r sofar ps
    | .ok .unknown => evalAny r .unknown ps

end

/-- What the predicate is of a record, as a value: a boolean, or `null` when it is unknown. -/
def evaluate (p : Predicate) (r : Record) : Except EvalError Scalar := (p.eval r).map Truth.toScalar

/-- Whether a record is selected. -/
def selects (p : Predicate) (r : Record) : Except EvalError Bool := (p.evaluate r).map (· = .bool true)

end Predicate

end EntitySearch
