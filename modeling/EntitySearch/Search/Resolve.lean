import EntitySearch.Search.Grammar

/-!
# From payloads to searches

`Grammar.resolve` reads a whole payload. Children are read from left to right, and the first node that
cannot be read ends the reading; its faults are the faults of the payload. A limit bounds the nodes on
the way from the root to a leaf.
-/

namespace EntitySearch

namespace Form

theorem sizeOf_lookup_lt {members : List (String × Json)} {name : String} {value : Json}
    (h : members.lookup name = some value) : sizeOf value < sizeOf members := by
  induction members with
  | nil => simp at h
  | cons m rest ih =>
    obtain ⟨n, v⟩ := m
    rw [List.lookup_cons] at h
    split at h
    · cases h; simp; omega
    · have := ih h; simp; omega

theorem sizeOf_null_lt (members : List (String × Json)) :
    sizeOf Json.null < sizeOf (Json.object members) := by
  rw [Json.null.sizeOf_spec, Json.object.sizeOf_spec]
  cases members with
  | nil => rw [List.nil.sizeOf_spec]; omega
  | cons m rest => rw [List.cons.sizeOf_spec]; omega

theorem sizeOf_child_lt (members : List (String × Json)) :
    sizeOf (child members) < sizeOf (Json.object members) := by
  unfold child
  cases h : members.lookup "child" with
  | none => exact sizeOf_null_lt members
  | some value => have := sizeOf_lookup_lt h; simp; omega

theorem sizeOf_children_lt (members : List (String × Json)) :
    sizeOf (children members) < sizeOf (Json.object members) := by
  unfold children
  split
  · next h =>
    have := sizeOf_lookup_lt h
    rw [Json.array.sizeOf_spec] at this
    rw [Json.object.sizeOf_spec]
    omega
  · have := sizeOf_null_lt members
    rw [Json.null.sizeOf_spec] at this
    rw [List.nil.sizeOf_spec]
    exact this

end Form

namespace Grammar

theorem offer_eq_ok {location : Location} {members : List (String × Json)} {seen : String}
    {tried : List String} {forms : List Form} {parts : Parts}
    (h : offer location members seen tried forms = .ok parts) :
    ∃ form ∈ forms, form.read location members = .ok parts := by
  induction forms generalizing tried with
  | nil => cases h
  | cons form rest ih =>
    rw [offer] at h
    split at h
    · next hr => cases h; exact ⟨form, .head _, hr⟩
    · obtain ⟨f, hf, hr⟩ := ih h
      exact ⟨f, .tail _ hf, hr⟩
    · cases h

theorem readNode_eq_ok {g : Grammar} {limit : Option Nat} {location : Location} {depth : Nat}
    {payload : Json} {parts : Parts} (h : g.readNode limit location depth payload = .ok parts) :
    ∃ members, payload = .object members ∧ ∃ form ∈ g.forms, parts = form.parts members := by
  unfold readNode at h
  split at h
  · cases h
  · split at h
    · next members =>
      split at h <;> try cases h
      obtain ⟨form, hform, hr⟩ := offer_eq_ok h
      refine ⟨members, rfl, form, hform, ?_⟩
      unfold Form.read at hr
      split at hr
      · split at hr <;> cases hr
        rfl
      · cases hr
    · cases h

theorem sizeOf_nodes_lt {g : Grammar} {limit : Option Nat} {location : Location} {depth : Nat}
    {payload : Json} {parts : Parts} (h : g.readNode limit location depth payload = .ok parts) :
    match parts with
    | .not child => sizeOf child < sizeOf payload
    | .or children | .and children => sizeOf children < sizeOf payload
    | .entity _ => True := by
  obtain ⟨members, rfl, form, -, rfl⟩ := readNode_eq_ok h
  cases form with
  | not => exact Form.sizeOf_child_lt members
  | or | and => exact Form.sizeOf_children_lt members
  | entity => trivial

mutual

/-- The search that the payload at `location` stands for. -/
def resolveNode (g : Grammar) (limit : Option Nat) (location : Location) (depth : Nat)
    (payload : Json) : Except Rejection Search :=
  match _h : g.readNode limit location depth payload with
  | .error e => .error e
  | .ok (.not child) =>
    (g.resolveNode limit (location.member "child") (depth + 1) child).map .not
  | .ok (.or children) =>
    (g.resolveNodes limit (location.member "children") 0 (depth + 1) children).map .or
  | .ok (.and children) =>
    (g.resolveNodes limit (location.member "children") 0 (depth + 1) children).map .and
  | .ok (.entity query) => .ok (.entity query)
termination_by sizeOf payload
decreasing_by all_goals exact sizeOf_nodes_lt _h

/-- The searches of the payloads in a list, the first of which has the given index. -/
def resolveNodes (g : Grammar) (limit : Option Nat) (location : Location) (index depth : Nat)
    (payloads : List Json) : Except Rejection (List Search) :=
  match payloads with
  | [] => .ok []
  | payload :: rest => match g.resolveNode limit (location.item index) depth payload with
    | .error e => .error e
    | .ok t => (g.resolveNodes limit location (index + 1) depth rest).map (t :: ·)
termination_by sizeOf payloads

end

def resolve (g : Grammar) (limit : Option Nat) (payload : Json) : Except Rejection Search :=
  g.resolveNode limit .root 1 payload

end Grammar

end EntitySearch
