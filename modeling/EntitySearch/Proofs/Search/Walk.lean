import EntitySearch.Proofs.Search.Operators

/-!
# Walks through payloads

`Json.at?` follows a location through a payload, step by step. The nodes of a payload are reached by
going down from the root to operands (`Descent`). A node that cannot be resolved is bad itself, or it has operands of
which a first one cannot be resolved (`Grammar.exists_descent_of_resolveNode`).
-/

namespace EntitySearch

/-- A way from a node to one of its operands. -/
inductive Descent
  | child
  | item (index : Nat)
deriving DecidableEq

namespace Location

def down (l : Location) : Descent → Location
  | .child => l.member "child"
  | .item index => (l.member "children").item index

/-- The location of the node that is reached from the root. -/
def ofDescents (q : List Descent) : Location := q.foldl down root

@[simp] theorem ofDescents_nil : ofDescents [] = root := rfl

@[simp] theorem ofDescents_concat (q : List Descent) (d : Descent) :
    ofDescents (q ++ [d]) = (ofDescents q).down d := by
  simp [ofDescents]

theorem member_inj {l : Location} {a b : String} : l.member a = l.member b ↔ a = b := by
  simp [member]

end Location

namespace Json

/-- What a step leads to. -/
def step? : Json → Step → Option Json
  | object members, .member name => members.lookup name
  | array items, .item index => items[index]?
  | _, _ => none

/-- The value at a location of a payload. -/
def at? (payload : Json) (l : Location) : Option Json := l.steps.foldlM step? payload

/-- The operand of a node that a descent leads to. -/
def down? (node : Json) : Descent → Option Json
  | .child => node.step? (.member "child")
  | .item index => (node.step? (.member "children")).bind (·.step? (.item index))

variable {payload node : Json} {l : Location}

@[simp] theorem at?_root : payload.at? .root = some payload := rfl

theorem at?_member (name : String) :
    payload.at? (l.member name) = (payload.at? l).bind (·.step? (.member name)) := by
  simp [at?, Location.member, List.foldlM_append]

theorem at?_item (index : Nat) :
    payload.at? (l.item index) = (payload.at? l).bind (·.step? (.item index)) := by
  simp [at?, Location.item, List.foldlM_append]

theorem at?_down (d : Descent) : payload.at? (l.down d) = (payload.at? l).bind (·.down? d) := by
  cases d with
  | child => exact at?_member _
  | item index =>
    rw [Location.down, at?_item, at?_member, Option.bind_assoc]
    rfl

theorem at?_member_of_at? {members : List (String × Json)} (h : payload.at? l = some (.object members))
    (name : String) : payload.at? (l.member name) = members.lookup name := by
  rw [at?_member, h]
  rfl

theorem at?_down_of_at? (h : payload.at? l = some node) (d : Descent) :
    payload.at? (l.down d) = node.down? d := by
  rw [at?_down, h]
  rfl

end Json

namespace Grammar
variable {g : Grammar} {limit : Option Nat} {location : Location} {depth : Nat} {node : Json}
  {rejection : Rejection}

theorem exists_item_of_resolveNodes {index : Nat} {payloads : List Json}
    (h : g.resolveNodes limit location index depth payloads = .error rejection) :
    ∃ i payload, payloads[i]? = some payload ∧
      g.resolveNode limit (location.item (index + i)) depth payload = .error rejection ∧
      ∀ j < i, ∃ sibling t, payloads[j]? = some sibling ∧
        g.resolveNode limit (location.item (index + j)) depth sibling = .ok t := by
  induction payloads generalizing index with
  | nil =>
    rw [resolveNodes] at h
    cases h
  | cons payload rest ih =>
    rw [resolveNodes] at h
    cases hp : g.resolveNode limit (location.item index) depth payload with
    | error e =>
      rw [hp] at h
      cases h
      exact ⟨0, payload, rfl, hp, by simp⟩
    | ok t =>
      rw [hp] at h
      obtain ⟨i, bad, hbad, hfail, hbefore⟩ := ih (map_eq_error_iff.1 h)
      refine ⟨i + 1, bad, hbad, ?_, fun j hj => ?_⟩
      · rw [show index + (i + 1) = index + 1 + i by omega]
        exact hfail
      · cases j with
        | zero => exact ⟨payload, t, rfl, hp⟩
        | succ j =>
          obtain ⟨sibling, t, hsibling, hok⟩ := hbefore j (by omega)
          refine ⟨sibling, t, hsibling, ?_⟩
          rw [show index + (j + 1) = index + 1 + j by omega]
          exact hok

/-- What is known of the operand of a node at which resolving the node has failed. -/
structure FailsAt (g : Grammar) (limit : Option Nat) (location : Location) (depth : Nat) (node : Json)
    (rejection : Rejection) (d : Descent) (operand : Json) : Prop where
  reached : node.down? d = some operand
  smaller : sizeOf operand < sizeOf node
  distinct : operand.hasDistinctKeys
  fails : g.resolveNode limit (location.down d) (depth + 1) operand = .error rejection
  before : ∀ index, d = .item index → ∀ i < index, ∃ sibling t, node.down? (.item i) = some sibling ∧
    g.resolveNode limit (location.down (.item i)) (depth + 1) sibling = .ok t

theorem failsAt_item {members : List (String × Json)} (form : Form)
    (hf : form.fields = [⟨"children", .nodes, true⟩]) (hadmits : form.Admits members)
    (hd : (Json.object members).hasDistinctKeys)
    (h : g.resolveNodes limit (location.member "children") 0 (depth + 1) (Form.children members) =
      .error rejection) :
    ∃ d operand, g.FailsAt limit location depth (.object members) rejection d operand := by
  obtain ⟨hnd, -⟩ := Json.hasDistinctKeys_object_iff.1 hd
  obtain ⟨-, hmem, -, hdistinct⟩ := hadmits.operands hf hd
  have hdown (i : Nat) : (Json.object members).down? (.item i) = (Form.children members)[i]? := by
    rw [Json.down?, Json.step?, (lookup_eq_some_iff_mem hnd).2 hmem]
    rfl
  have hloc (i : Nat) : (location.member "children").item (0 + i) = location.down (.item i) := by
    rw [Nat.zero_add]
    rfl
  obtain ⟨i, operand, hoperand, hfail, hbefore⟩ := exists_item_of_resolveNodes h
  have hitem : operand ∈ Form.children members := List.mem_of_getElem? hoperand
  refine ⟨.item i, operand, (hdown i).trans hoperand, ?_, hdistinct operand hitem, hloc i ▸ hfail, ?_⟩
  · exact Nat.lt_trans (List.sizeOf_lt_of_mem hitem) (Form.sizeOf_children_lt members)
  · rintro index ⟨⟩ j hj
    obtain ⟨sibling, t, hsibling, hok⟩ := hbefore j hj
    exact ⟨sibling, t, (hdown j).trans hsibling, hloc j ▸ hok⟩

theorem exists_descent_of_resolveNode (hd : node.hasDistinctKeys)
    (h : g.resolveNode limit location depth node = .error rejection) :
    g.readNode limit location depth node = .error rejection ∨
      (∀ l ∈ limit, depth ≤ l) ∧
        ∃ d operand, g.FailsAt limit location depth node rejection d operand := by
  rw [resolveNode_eq] at h
  cases hn : g.readNode limit location depth node with
  | error e =>
    rw [hn] at h
    cases h
    exact .inl rfl
  | ok parts =>
    rw [hn] at h
    obtain ⟨hlimit, members, rfl, form, -, hadmits, rfl⟩ := readNode_eq_ok_iff.1 hn
    obtain ⟨hnd, hm⟩ := Json.hasDistinctKeys_object_iff.1 hd
    refine .inr ⟨hlimit, ?_⟩
    cases form with
    | not =>
      obtain ⟨-, ⟨child, hchild⟩, -⟩ := (Form.admits_not_iff hnd).1 hadmits
      have heq : Form.child members = .object child := Form.child_eq_of_mem hnd hchild
      have hfail := map_eq_error_iff.1 h
      rw [heq] at hfail
      refine ⟨.child, .object child, ?_, ?_, hm _ hchild, hfail, nofun⟩
      · exact (lookup_eq_some_iff_mem hnd).2 hchild
      · rw [← heq]
        exact Form.sizeOf_child_lt members
    | or => exact failsAt_item .or rfl hadmits hd (map_eq_error_iff.1 h)
    | and => exact failsAt_item .and rfl hadmits hd (map_eq_error_iff.1 h)
    | entity kind fields => cases h

end Grammar

end EntitySearch
