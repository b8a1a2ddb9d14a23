import EntitySearch.Search.Form

/-!
# Grammars

The grammar of payloads is a list of forms with different tags. A node is offered to the forms in
turn; since tags differ, at most one of them takes it, and its faults are the faults of the node.
`Grammar.ofSchema` is the grammar of a schema: the three operators, then the entities.
-/

namespace EntitySearch

/-- The first name that occurs among `before` or earlier in the list. -/
def firstRepeat? (before : List String) : List String → Option String
  | [] => none
  | name :: rest => if name ∈ before then some name else firstRepeat? (name :: before) rest

theorem firstRepeat?_eq_none_iff {before names : List String} :
    firstRepeat? before names = none ↔ names.Nodup ∧ ∀ n ∈ names, n ∉ before := by
  induction names generalizing before with
  | nil => simp [firstRepeat?]
  | cons n rest ih =>
    rw [firstRepeat?]
    by_cases hn : n ∈ before
    · simp [hn]
    · simp only [hn, if_false, ih, List.mem_cons, List.nodup_cons]
      grind

structure Grammar where
  forms : List Form
  nodup_tags : (forms.map Form.tag).Nodup
deriving DecidableEq

namespace Grammar

def ofForms (forms : List Form) : Except SchemaError Grammar :=
  match h : firstRepeat? [] (forms.map Form.tag) with
  | none => .ok ⟨forms, (firstRepeat?_eq_none_iff.1 h).1⟩
  | some tag => .error (.repeatedTag tag)

def ofSchema (schema : Schema) : Except SchemaError Grammar :=
  ofForms ([.not, .or, .and] ++ schema.entities.map Form.ofEntity)

def tags (g : Grammar) : List String := g.forms.map Form.tag

def form? (g : Grammar) (tag : String) : Option Form := g.forms.find? (·.tag = tag)

end Grammar

inductive Rejection
  /-- The node is refused before its fields are looked at. -/
  | node (fault : Fault)
  /-- The form with this tag finds these faults in the node at the location. -/
  | fields (location : Location) (tag : String) (faults : List Fault)
deriving DecidableEq

def Rejection.faults : Rejection → List Fault
  | node fault => [fault]
  | fields _ _ faults => faults

namespace Grammar

/-- Offers a node with the tag `seen` to forms that come after those with the tags `tried`. -/
def offer (location : Location) (members : List (String × Json)) (seen : String)
    (tried : List String) : List Form → Except Rejection Parts
  | [] => .error (.node ⟨location, .unknownTag seen tried⟩)
  | form :: rest => match form.read location members with
    | .ok parts => .ok parts
    | .error .otherTag => offer location members seen (tried ++ [form.tag]) rest
    | .error (.faulty faults) => .error (.fields location form.tag faults)

/-- The parts of the payload at `location`, whose node is the `depth`-th on the way to it. -/
def readNode (g : Grammar) (limit : Option Nat) (location : Location) (depth : Nat) (payload : Json) :
    Except Rejection Parts :=
  match limit.filter (· < depth) with
  | some limit => .error (.node ⟨location, .tooDeep limit⟩)
  | none => match payload with
    | .object members => match members.lookup tagKey with
      | none | some .null => .error (.node ⟨location, .missingTag⟩)
      | some (.string seen) => offer location members seen [] g.forms
      | some other => .error (.node ⟨location.member tagKey, .wrongShape "string" other⟩)
    | other => .error (.node ⟨location, .notAnObject other⟩)

end Grammar

end EntitySearch
