import EntitySearch.Number.Binary64

/-!
# JSON values

`Json` is the JSON data model with two refinements. A number is an exact integer when it lies in
the range of the signed and unsigned sixty-four bit words, and a finite double otherwise
(`JsonNumber`). The members of an object keep their order; `Json.put` is how a reader adds one, a
repeated name keeping its first place and taking the last value.
-/

namespace EntitySearch

inductive JsonNumber
  | int (value : Int) (lower : -0x8000000000000000 ≤ value)
    (upper : value < 0x10000000000000000)
  | float (value : Binary64) (finite : value.isFinite)
deriving DecidableEq

namespace JsonNumber

def ofInt64 (i : Int64) : JsonNumber :=
  .int i.toInt i.le_toInt (by have := i.toInt_lt; omega)

/-- The integer, if it is one and fits a signed word. -/
def toInt64? : JsonNumber → Option Int64
  | .int value _ _ => if value < 0x8000000000000000 then some (.ofInt value) else none
  | .float .. => none

def toBinary64 : JsonNumber → Binary64
  | .int value _ _ => .ofInt value
  | .float value _ => value

end JsonNumber

inductive Json
  | null
  | bool (value : Bool)
  | number (value : JsonNumber)
  | string (value : String)
  | array (items : List Json)
  | object (members : List (String × Json))
deriving Inhabited

namespace Json

mutual

def decEq : (a b : Json) → Decidable (a = b)
  | null, null => isTrue rfl
  | bool a, bool b => decidable_of_iff (a = b) (by simp)
  | number a, number b => decidable_of_iff (a = b) (by simp)
  | string a, string b => decidable_of_iff (a = b) (by simp)
  | array as, array bs => have := decEqItems as bs; decidable_of_iff (as = bs) (by simp)
  | object as, object bs => have := decEqMembers as bs; decidable_of_iff (as = bs) (by simp)
  | null, bool _ | null, number _ | null, string _ | null, array _ | null, object _
  | bool _, null | bool _, number _ | bool _, string _ | bool _, array _ | bool _, object _
  | number _, null | number _, bool _ | number _, string _ | number _, array _ | number _, object _
  | string _, null | string _, bool _ | string _, number _ | string _, array _ | string _, object _
  | array _, null | array _, bool _ | array _, number _ | array _, string _ | array _, object _
  | object _, null | object _, bool _ | object _, number _ | object _, string _ | object _, array _ =>
    isFalse nofun

def decEqItems : (as bs : List Json) → Decidable (as = bs)
  | [], [] => isTrue rfl
  | a :: as, b :: bs =>
    have := decEq a b
    have := decEqItems as bs
    decidable_of_iff (a = b ∧ as = bs) (by simp)
  | [], _ :: _ | _ :: _, [] => isFalse nofun

def decEqMembers : (as bs : List (String × Json)) → Decidable (as = bs)
  | [], [] => isTrue rfl
  | (m, a) :: as, (n, b) :: bs =>
    have := decEq a b
    have := decEqMembers as bs
    decidable_of_iff (m = n ∧ a = b ∧ as = bs) (by simp [and_assoc])
  | [], _ :: _ | _ :: _, [] => isFalse nofun

end

instance : DecidableEq Json := decEq

/-- Adds a member: a name already there keeps its place and takes the new value. -/
def put (name : String) (value : Json) : List (String × Json) → List (String × Json)
  | [] => [(name, value)]
  | (n, v) :: rest => if n = name then (n, value) :: rest else (n, v) :: put name value rest

def isNull : Json → Bool
  | null => true
  | _ => false

def isObject : Json → Bool
  | object _ => true
  | _ => false

def isArray : Json → Bool
  | array _ => true
  | _ => false

def string? : Json → Option String
  | string s => some s
  | _ => none

end Json

end EntitySearch
