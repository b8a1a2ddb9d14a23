import EntitySearch.FieldMap
import EntitySearch.Schema.Basic

/-!
# Searches

A `Search` is the tree a payload stands for: entity queries under negation, conjunction and
disjunction. `Search.toPayload` writes the payload back.
-/

namespace EntitySearch

/-- The values wanted in some fields of the entities of a kind. A field wanted to be `null` is a field
without a wish, so no wish is `null`. -/
structure EntityQuery where
  kind : String
  wanted : FieldMap Scalar
  wanted_ne_null : ∀ e ∈ wanted.entries, e.2 ≠ .null := by simp
deriving DecidableEq

namespace EntityQuery

def ofKind (kind : String) : EntityQuery where
  kind := kind
  wanted := ∅
  wanted_ne_null := by intro e he; cases he

/-- Sets the value wanted in a field; `null` takes a wish back. -/
def set (q : EntityQuery) (field : String) (value : Scalar) : EntityQuery :=
  if h : value = .null then
    { q with
      wanted := q.wanted.erase field
      wanted_ne_null := fun e he => q.wanted_ne_null e (List.mem_filter.1 he).1 }
  else
    { q with
      wanted := q.wanted.insert field value
      wanted_ne_null := fun e he => by
        rcases FieldMap.mem_insertEntry he with rfl | he
        · exact h
        · exact q.wanted_ne_null e he }

def get? (q : EntityQuery) (field : String) : Option Scalar := q.wanted.get? field

def isEmpty (q : EntityQuery) : Bool := q.wanted.isEmpty

/-- The kind, then the wishes by name. A field with the name of the tag would take the place of the
kind. -/
def toPayload (q : EntityQuery) : Json :=
  .object (q.wanted.entries.foldl (fun members (field, value) => Json.put field value.toJson members)
    [(tagKey, .string q.kind)])

end EntityQuery

inductive Search
  | not (child : Search)
  | and (children : List Search)
  | or (children : List Search)
  | entity (query : EntityQuery)
deriving Inhabited

namespace Search

mutual

def decEq : (a b : Search) → Decidable (a = b)
  | not a, not b => have := decEq a b; decidable_of_iff (a = b) (by simp)
  | and as, and bs => have := decEqList as bs; decidable_of_iff (as = bs) (by simp)
  | or as, or bs => have := decEqList as bs; decidable_of_iff (as = bs) (by simp)
  | entity a, entity b => decidable_of_iff (a = b) (by simp)
  | not _, and _ | not _, or _ | not _, entity _ | and _, not _ | and _, or _ | and _, entity _
  | or _, not _ | or _, and _ | or _, entity _ | entity _, not _ | entity _, and _ | entity _, or _ =>
    isFalse nofun

def decEqList : (as bs : List Search) → Decidable (as = bs)
  | [], [] => isTrue rfl
  | a :: as, b :: bs =>
    have := decEq a b
    have := decEqList as bs
    decidable_of_iff (a = b ∧ as = bs) (by simp)
  | [], _ :: _ | _ :: _, [] => isFalse nofun

end

instance : DecidableEq Search := decEq

/-- What the payload of the search has as its tag. -/
def tag : Search → String
  | not _ => "Not"
  | and _ => "And"
  | or _ => "Or"
  | entity query => query.kind

mutual

/-- The entity queries from left to right. -/
def queries : Search → List EntityQuery
  | not child => child.queries
  | and children | or children => queriesOfList children
  | entity query => [query]

def queriesOfList : List Search → List EntityQuery
  | [] => []
  | t :: ts => t.queries ++ queriesOfList ts

end

mutual

/-- The kind of entity the search is about: that of its first entity query. -/
def kind? : Search → Option String
  | not child => child.kind?
  | and children | or children => kindOfList? children
  | entity query => some query.kind

def kindOfList? : List Search → Option String
  | [] => none
  | t :: ts => match t.kind? with
    | some kind => some kind
    | none => kindOfList? ts

end

mutual

def toPayload : Search → Json
  | not child => .object [(tagKey, .string "Not"), ("child", child.toPayload)]
  | and children => .object [(tagKey, .string "And"), ("children", .array (toPayloads children))]
  | or children => .object [(tagKey, .string "Or"), ("children", .array (toPayloads children))]
  | entity query => query.toPayload

def toPayloads : List Search → List Json
  | [] => []
  | t :: ts => t.toPayload :: toPayloads ts

end

end Search

end EntitySearch
