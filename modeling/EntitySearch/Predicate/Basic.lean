import EntitySearch.Scalar

/-!
# Predicates

A `Predicate` is what a search is compiled to: tests of single fields under negation, conjunction and
disjunction. `Predicate.conjunction` and `Predicate.disjunction` join predicates without the operator
where there are less than two of them.
-/

namespace EntitySearch

/-- The test whether a field of the entities of a kind equals a value. -/
structure FieldTest where
  kind : String
  field : String
  value : Scalar
deriving DecidableEq

inductive Predicate
  | always
  | never
  | test (test : FieldTest)
  | not (operand : Predicate)
  | and (operands : List Predicate)
  | or (operands : List Predicate)
deriving Inhabited

namespace Predicate

mutual

def decEq : (a b : Predicate) → Decidable (a = b)
  | always, always | never, never => isTrue rfl
  | test a, test b => decidable_of_iff (a = b) (by simp)
  | not a, not b => have := decEq a b; decidable_of_iff (a = b) (by simp)
  | and as, and bs => have := decEqList as bs; decidable_of_iff (as = bs) (by simp)
  | or as, or bs => have := decEqList as bs; decidable_of_iff (as = bs) (by simp)
  | always, never | always, test _ | always, not _ | always, and _ | always, or _
  | never, always | never, test _ | never, not _ | never, and _ | never, or _
  | test _, always | test _, never | test _, not _ | test _, and _ | test _, or _
  | not _, always | not _, never | not _, test _ | not _, and _ | not _, or _
  | and _, always | and _, never | and _, test _ | and _, not _ | and _, or _
  | or _, always | or _, never | or _, test _ | or _, not _ | or _, and _ => isFalse nofun

def decEqList : (as bs : List Predicate) → Decidable (as = bs)
  | [], [] => isTrue rfl
  | a :: as, b :: bs =>
    have := decEq a b
    have := decEqList as bs
    decidable_of_iff (a = b ∧ as = bs) (by simp)
  | [], _ :: _ | _ :: _, [] => isFalse nofun

end

instance : DecidableEq Predicate := decEq

def conjunction : List Predicate → Predicate
  | [] => always
  | [p] => p
  | ps => and ps

def disjunction : List Predicate → Predicate
  | [] => never
  | [p] => p
  | ps => or ps

mutual

/-- The field tests from left to right. -/
def tests : Predicate → List FieldTest
  | always | never => []
  | test t => [t]
  | not p => p.tests
  | and ps | or ps => testsOfList ps

def testsOfList : List Predicate → List FieldTest
  | [] => []
  | p :: ps => p.tests ++ testsOfList ps

end

end Predicate

end EntitySearch
