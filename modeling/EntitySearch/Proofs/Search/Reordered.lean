import EntitySearch.Proofs.Json.MemberOrder
import EntitySearch.Proofs.Search.Dispatch
import EntitySearch.Proofs.Search.Meaning

/-!
# Payloads with their members in another order

A payload with the members of its objects in another order, at any depth, is resolved to the same search
or is rejected with the same faults, those of a node in the order of its members (`Grammar.resolve_reordered`). At each
node the tags agree, so the same form is asked, and its faults are permuted (`Fault.Permuted`); if there are none, the
parts of the nodes are reordered again (`Grammar.readNode_reordered`).
-/

namespace EntitySearch

/-- The causes are equal but for the order of members in what was received. -/
inductive Cause.Reordered : Cause → Cause → Prop
  | refl (cause : Cause) : Reordered cause cause
  | notAnObject {received received'} (h : received.Reordered received') :
      Reordered (.notAnObject received) (.notAnObject received')
  | wrongShape {expected received received'} (h : received.Reordered received') :
      Reordered (.wrongShape expected received) (.wrongShape expected received')

structure Fault.Reordered (f f' : Fault) : Prop where
  location : f.location = f'.location
  cause : f.cause.Reordered f'.cause

/-- The second list has the faults of the first one in some order, but for the order of members in what was
received. -/
def Fault.Permuted (fs fs' : List Fault) : Prop :=
  ∃ permuted, List.Forall₂ Fault.Reordered fs permuted ∧ permuted.Perm fs'

namespace Fault

theorem Permuted.refl (fs : List Fault) : Permuted fs fs :=
  ⟨fs, List.forall₂_same.2 fun _ _ => ⟨rfl, .refl _⟩, .refl fs⟩

theorem Permuted.singleton {location : Location} {cause cause' : Cause} (h : cause.Reordered cause') :
    Permuted [⟨location, cause⟩] [⟨location, cause'⟩] :=
  ⟨[⟨location, cause'⟩], .cons ⟨rfl, h⟩ .nil, .refl _⟩

theorem Permuted.eq_nil_iff {fs fs' : List Fault} (h : Permuted fs fs') : fs = [] ↔ fs' = [] := by
  obtain ⟨permuted, hfaults, hperm⟩ := h
  rw [← List.length_eq_zero_iff, ← List.length_eq_zero_iff, hfaults.length_eq, hperm.length_eq]

end Fault

def Rejection.Permuted (rejection rejection' : Rejection) : Prop :=
  Fault.Permuted rejection.faults rejection'.faults

/-- The parts are equal but for the order of members in the payloads of children. -/
inductive Parts.Reordered : Parts → Parts → Prop
  | not {child child'} (h : child.Reordered child') : Reordered (.not child) (.not child')
  | or {children children'} (h : Json.ItemsReordered children children') :
      Reordered (.or children) (.or children')
  | and {children children'} (h : Json.ItemsReordered children children') :
      Reordered (.and children) (.and children')
  | entity (query : EntityQuery) : Reordered (.entity query) (.entity query)

theorem Parts.Reordered.refl (parts : Parts) : parts.Reordered parts := by
  cases parts with
  | not child => exact .not (.refl child)
  | or children => exact .or (.refl children)
  | and children => exact .and (.refl children)
  | entity query => exact .entity query

namespace Form
variable {location : Location} {name : String} {value value' : Json}

theorem admits_eq_of_reordered (h : value.Reordered value') (shape : Shape) :
    shape.admits value = shape.admits value' := by
  cases h <;> cases shape <;> rfl

/-- Only a value without members gives a field something. -/
theorem scalar?_eq_of_reordered (h : value.Reordered value') (form : Form) (name : String) :
    form.scalar? name value = form.scalar? name value' := by
  cases h <;> rfl

theorem memberFault?_reordered (h : value.Reordered value') (form : Form) (location : Location)
    (name : String) :
    form.memberFault? location name value = none ∧ form.memberFault? location name value' = none ∨
      ∃ f f', form.memberFault? location name value = some f ∧
        form.memberFault? location name value' = some f' ∧ f.Reordered f' := by
  unfold memberFault?
  rw [h.isNull_eq]
  split
  · exact .inl ⟨rfl, rfl⟩
  split
  · exact .inr ⟨_, _, rfl, rfl, rfl, .refl _⟩
  · rw [admits_eq_of_reordered h]
    split
    · exact .inl ⟨rfl, rfl⟩
    · exact .inr ⟨_, _, rfl, rfl, rfl, .wrongShape h⟩

theorem memberFaults_reordered {members members' : List (String × Json)} (form : Form) (location : Location)
    (h : Json.MembersReordered members members') : List.Forall₂ Fault.Reordered
      (members.filterMap fun (name, value) => form.memberFault? location name value)
      (members'.filterMap fun (name, value) => form.memberFault? location name value) := by
  cases h with
  | nil => exact .nil
  | @cons name _ _ _ _ head tail =>
    have htail := memberFaults_reordered form location tail
    rcases memberFault?_reordered head form location name with ⟨h, h'⟩ | ⟨f, f', h, h', hf⟩
    · simp only [List.filterMap_cons, h, h']
      exact htail
    · simp only [List.filterMap_cons, h, h']
      exact .cons hf htail

theorem query_eq_of_reordered {members members' : List (String × Json)} (form : Form)
    (h : Json.MembersReordered members members') (q : EntityQuery) :
    form.setMembers q members = form.setMembers q members' := by
  cases h with
  | nil => rfl
  | @cons name value value' _ _ head tail =>
    have hmember : form.setMember q name value = form.setMember q name value' := by
      rw [setMember_eq, setMember_eq, scalar?_eq_of_reordered head]
    show form.setMembers (form.setMember q name value) _ = form.setMembers (form.setMember q name value') _
    rw [hmember]
    exact query_eq_of_reordered form tail _

section
variable {members permuted members' : List (String × Json)} (hnd : (members.map Prod.fst).Nodup)
  (values : Json.MembersReordered members permuted) (perm : permuted.Perm members')
include hnd values perm

theorem lookup_reordered (name : String) :
    members.lookup name = none ∧ members'.lookup name = none ∨ ∃ value value',
      members.lookup name = some value ∧ members'.lookup name = some value' ∧ value.Reordered value' := by
  rw [← lookup_eq_of_perm (values.names_eq ▸ hnd) perm]
  exact values.lookup name

theorem tag?_eq_of_reordered : tag? members = tag? members' := by
  unfold tag?
  rcases lookup_reordered hnd values perm tagKey with ⟨h, h'⟩ | ⟨tag, tag', h, h', htag⟩
  · rw [h, h']
  · rw [h, h']
    cases htag <;> rfl

theorem lacks_eq_of_reordered (field : String) : lacks members field = lacks members' field := by
  unfold lacks
  rcases lookup_reordered hnd values perm field with ⟨h, h'⟩ | ⟨value, value', h, h', hvalue⟩
  · rw [h, h']
  · rw [h, h']
    exact hvalue.isNull_eq

theorem faults_permuted (form : Form) (location : Location) :
    Fault.Permuted (form.faults location members) (form.faults location members') := by
  have hlacks := lacks_eq_of_reordered hnd values perm
  simp only [faults, hlacks]
  refine ⟨_, List.rel_append (memberFaults_reordered form location values) (List.forall₂_same.2 ?_),
    (perm.filterMap _).append_right _⟩
  exact fun _ _ => ⟨rfl, .refl _⟩

theorem child_reordered : (child members).Reordered (child members') := by
  unfold child
  rcases lookup_reordered hnd values perm "child" with ⟨h, h'⟩ | ⟨value, value', h, h', hvalue⟩
  · rw [h, h']
    exact .refl _
  · rw [h, h']
    exact hvalue

theorem children_reordered : Json.ItemsReordered (children members) (children members') := by
  unfold children
  rcases lookup_reordered hnd values perm "children" with ⟨h, h'⟩ | ⟨value, value', h, h', hvalue⟩
  · rw [h, h']
    exact .nil
  · rw [h, h']
    cases hvalue with
    | refl => exact .refl _
    | array hitems => exact hitems
    | object => exact .nil

theorem query_eq (form : Form) : form.query members = form.query members' := by
  have hnd' : (permuted.map Prod.fst).Nodup := values.names_eq ▸ hnd
  have hvalues : form.query members = form.query permuted := query_eq_of_reordered form values _
  rw [hvalues]
  refine EntityQuery.ext_get? (by simp) fun name => Option.ext fun v => ?_
  rw [get?_query_eq_some_iff hnd', get?_query_eq_some_iff ((perm.map Prod.fst).nodup_iff.1 hnd')]
  simp only [perm.mem_iff]

theorem parts_reordered (form : Form) : (form.parts members).Reordered (form.parts members') := by
  cases form with
  | not => exact .not (child_reordered hnd values perm)
  | or => exact .or (children_reordered hnd values perm)
  | and => exact .and (children_reordered hnd values perm)
  | entity kind fields =>
    rw [parts, parts, query_eq hnd values perm]
    exact .entity _

end

end Form

namespace Grammar
variable {g : Grammar} {limit : Option Nat}

theorem readTagged_reordered {members permuted members' : List (String × Json)}
    (hnd : (members.map Prod.fst).Nodup) (values : Json.MembersReordered members permuted)
    (perm : permuted.Perm members') (g : Grammar) (location : Location) (seen : String) :
    Matching Rejection.Permuted Parts.Reordered (g.readTagged location seen members)
      (g.readTagged location seen members') := by
  unfold readTagged
  cases g.form? seen with
  | none => exact .error (.refl _)
  | some form =>
    have hfaults := Form.faults_permuted hnd values perm form location
    simp only [Form.read, Form.tag?_eq_of_reordered hnd values perm]
    by_cases htag : Form.tag? members' = some form.tag
    · rw [if_pos htag, if_pos htag]
      cases hf : form.faults location members with
      | nil =>
        rw [hfaults.eq_nil_iff.1 hf]
        exact .ok (Form.parts_reordered hnd values perm form)
      | cons f fs =>
        cases hf' : form.faults location members' with
        | nil =>
          rw [hfaults.eq_nil_iff.2 hf'] at hf
          cases hf
        | cons f' fs' =>
          rw [hf, hf'] at hfaults
          exact .error hfaults
    · rw [if_neg htag, if_neg htag]
      exact .error (.refl _)

theorem readNode_reordered {location : Location} {depth : Nat} {payload payload' : Json}
    (h : payload.Reordered payload') (hd : payload.hasDistinctKeys) :
    Matching Rejection.Permuted Parts.Reordered (g.readNode limit location depth payload)
      (g.readNode limit location depth payload') := by
  rw [readNode_eq_readTagged, readNode_eq_readTagged]
  unfold heading
  cases limit.filter (· < depth) with
  | some limit => exact .error (.refl _)
  | none =>
    cases h with
    | refl => exact .refl (fun _ => .refl _) .refl _
    | array h => exact .error (.singleton (.notAnObject (.array h)))
    | @object members permuted members' values perm =>
      obtain ⟨hnd, -⟩ := Json.hasDistinctKeys_object_iff.1 hd
      dsimp only
      rcases Form.lookup_reordered hnd values perm tagKey with ⟨h, h'⟩ | ⟨tag, tag', h, h', htag⟩
      · rw [h, h']
        exact .error (.refl _)
      · rw [h, h']
        cases htag with
        | refl =>
          cases tag with
          | null => exact .error (.refl _)
          | string seen => exact readTagged_reordered hnd values perm g location seen
          | bool _ | number _ | array _ | object _ => exact .error (.refl _)
        | array hitems => exact .error (.singleton (.wrongShape (.array hitems)))
        | object values perm => exact .error (.singleton (.wrongShape (.object values perm)))

theorem hasDistinctKeys_nodes {location : Location} {depth : Nat} {payload : Json} {parts : Parts}
    (hd : payload.hasDistinctKeys)
    (h : g.readNode limit location depth payload = .ok parts) :
    match parts with
    | .not child => child.hasDistinctKeys
    | .or children | .and children => ∀ child ∈ children, child.hasDistinctKeys
    | .entity _ => True := by
  obtain ⟨members, rfl, form, -, rfl⟩ := readNode_eq_ok h
  cases form with
  | not => exact Form.hasDistinctKeys_child hd
  | or | and => exact Form.hasDistinctKeys_of_mem_children hd
  | entity => trivial

mutual

theorem resolveNode_reordered {payload payload' : Json} (h : payload.Reordered payload')
    (hd : payload.hasDistinctKeys) (location : Location) (depth : Nat) :
    Matching Rejection.Permuted (· = ·) (g.resolveNode limit location depth payload)
      (g.resolveNode limit location depth payload') := by
  rw [resolveNode_eq, resolveNode_eq]
  have hread : Matching Rejection.Permuted Parts.Reordered (g.readNode limit location depth payload)
      (g.readNode limit location depth payload') := readNode_reordered h hd
  generalize hn : g.readNode limit location depth payload = node at hread ⊢
  generalize g.readNode limit location depth payload' = node' at hread ⊢
  cases hread with
  | error h => exact .error h
  | ok hparts =>
    have hlt := sizeOf_nodes_lt hn
    have hd := hasDistinctKeys_nodes hd hn
    cases hparts with
    | not h => exact (resolveNode_reordered h hd _ _).map fun _ _ => congrArg Search.not
    | or h => exact (resolveNodes_reordered h hd _ _ _).map fun _ _ => congrArg Search.or
    | and h => exact (resolveNodes_reordered h hd _ _ _).map fun _ _ => congrArg Search.and
    | entity query => exact .ok rfl
termination_by sizeOf payload

theorem resolveNodes_reordered {payloads payloads' : List Json} (h : Json.ItemsReordered payloads payloads')
    (hd : ∀ payload ∈ payloads, payload.hasDistinctKeys) (location : Location) (index depth : Nat) :
    Matching Rejection.Permuted (· = ·) (g.resolveNodes limit location index depth payloads)
      (g.resolveNodes limit location index depth payloads') := by
  cases h with
  | nil =>
    rw [resolveNodes]
    exact .ok rfl
  | @cons payload payload' rest rest' head tail =>
    obtain ⟨hd, hds⟩ := List.forall_mem_cons.1 hd
    have hhead : Matching Rejection.Permuted (· = ·)
        (g.resolveNode limit (location.item index) depth payload)
        (g.resolveNode limit (location.item index) depth payload') := resolveNode_reordered head hd _ _
    rw [resolveNodes, resolveNodes]
    generalize g.resolveNode limit (location.item index) depth payload = first at hhead ⊢
    generalize g.resolveNode limit (location.item index) depth payload' = first' at hhead ⊢
    cases hhead with
    | error h => exact .error h
    | ok h =>
      subst h
      exact (resolveNodes_reordered tail hds _ _ _).map fun _ _ => congrArg (_ :: ·)
termination_by sizeOf payloads

end

theorem resolve_reordered {payload payload' : Json} (h : payload.Reordered payload')
    (hd : payload.hasDistinctKeys) :
    Matching Rejection.Permuted (· = ·) (g.resolve limit payload) (g.resolve limit payload') :=
  resolveNode_reordered h hd .root 1

end Grammar

end EntitySearch
