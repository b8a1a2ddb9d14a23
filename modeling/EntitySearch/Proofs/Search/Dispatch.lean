import EntitySearch.Proofs.Search.SchemaForms

/-!
# Dispatch on the tag

A grammar offers a node to its forms in turn, `Grammar.dispatch` looks the tag of the node up among the forms and asks
the form that is found. Since a form refuses at once what has another tag, both ways come to the same
(`Grammar.resolve_eq_dispatch`). Tags differ, so all that the order of the forms is seen by is the list of tags that
were tried in vain (`Rejection.withTried`).
-/

namespace EntitySearch

def Rejection.withTried (tags : List String) : Rejection → Rejection
  | .node ⟨location, .unknownTag seen _⟩ => .node ⟨location, .unknownTag seen tags⟩
  | rejection => rejection

namespace Grammar

theorem ofForms_eq_ok_iff {forms : List Form} {g : Grammar} : ofForms forms = .ok g ↔ g.forms = forms := by
  constructor
  · intro h
    unfold ofForms at h
    split at h
    · cases h
      rfl
    · cases h
  · rintro rfl
    exact g.ofForms_forms

/-- The tag and the members of the node at `location`, before any form is asked. -/
def heading (limit : Option Nat) (location : Location) (depth : Nat) (payload : Json) :
    Except Rejection (String × List (String × Json)) :=
  match limit.filter (· < depth) with
  | some limit => .error (.node ⟨location, .tooDeep limit⟩)
  | none => match payload with
    | .object members => match members.lookup tagKey with
      | none | some .null => .error (.node ⟨location, .missingTag⟩)
      | some (.string seen) => .ok (seen, members)
      | some other => .error (.node ⟨location.member tagKey, .wrongShape "string" other⟩)
    | other => .error (.node ⟨location, .notAnObject other⟩)

/-- The parts of a node with the tag `seen`, by the form of this tag. -/
def readTagged (g : Grammar) (location : Location) (seen : String) (members : List (String × Json)) :
    Except Rejection Parts :=
  match g.form? seen with
  | none => .error (.node ⟨location, .unknownTag seen g.tags⟩)
  | some form => match form.read location members with
    | .ok parts => .ok parts
    | .error .otherTag => .error (.node ⟨location, .unknownTag seen g.tags⟩)
    | .error (.faulty faults) => .error (.fields location form.tag faults)

variable {g g' : Grammar} {limit : Option Nat} {location : Location} {depth : Nat} {payload : Json}
  {seen : String} {members : List (String × Json)} {parts : Parts}

theorem heading_eq_ok (h : heading limit location depth payload = .ok (seen, members)) :
    payload = .object members ∧ Form.tag? members = some seen := by
  unfold heading at h
  split at h
  · cases h
  split at h
  · split at h <;> cases h
    next hlookup => exact ⟨rfl, Form.tag?_eq_some_iff.2 hlookup⟩
  · cases h

theorem readTagged_eq_ok (h : g.readTagged location seen members = .ok parts) :
    ∃ form : Form, parts = form.parts members := by
  unfold readTagged at h
  split at h
  · cases h
  next form _ =>
  split at h <;> cases h
  next hread => exact ⟨form, (Form.read_eq_ok_iff.1 hread).2⟩

mutual

/-- The search that the payload at `location` stands for, found by dispatch on the tags of its nodes. -/
def dispatchNode (g : Grammar) (limit : Option Nat) (location : Location) (depth : Nat) (payload : Json) :
    Except Rejection Search :=
  match _h : heading limit location depth payload with
  | .error rejection => .error rejection
  | .ok (seen, members) => match _hr : g.readTagged location seen members with
    | .error rejection => .error rejection
    | .ok (.not child) => (g.dispatchNode limit (location.member "child") (depth + 1) child).map .not
    | .ok (.or children) =>
      (g.dispatchNodes limit (location.member "children") 0 (depth + 1) children).map .or
    | .ok (.and children) =>
      (g.dispatchNodes limit (location.member "children") 0 (depth + 1) children).map .and
    | .ok (.entity query) => .ok (.entity query)
termination_by sizeOf payload
decreasing_by
  all_goals
    obtain ⟨rfl, -⟩ := heading_eq_ok _h
    obtain ⟨form, hparts⟩ := readTagged_eq_ok _hr
    cases form <;> cases hparts
    first | exact Form.sizeOf_child_lt members | exact Form.sizeOf_children_lt members

def dispatchNodes (g : Grammar) (limit : Option Nat) (location : Location) (index depth : Nat)
    (payloads : List Json) : Except Rejection (List Search) :=
  match payloads with
  | [] => .ok []
  | payload :: rest => match g.dispatchNode limit (location.item index) depth payload with
    | .error rejection => .error rejection
    | .ok t => (g.dispatchNodes limit location (index + 1) depth rest).map (t :: ·)
termination_by sizeOf payloads

end

def dispatch (g : Grammar) (limit : Option Nat) (payload : Json) : Except Rejection Search :=
  g.dispatchNode limit .root 1 payload

/-- The first form of the tag decides, and those before it only add to what was tried. -/
theorem offer_eq (location : Location) (htag : Form.tag? members = some seen) (tried : List String)
    (forms : List Form) : offer location members seen tried forms =
      match forms.find? (·.tag = seen) with
      | none => .error (.node ⟨location, .unknownTag seen (tried ++ forms.map Form.tag)⟩)
      | some form => match form.read location members with
        | .ok parts => .ok parts
        | .error .otherTag => .error (.node ⟨location, .unknownTag seen (tried ++ forms.map Form.tag)⟩)
        | .error (.faulty faults) => .error (.fields location form.tag faults) := by
  induction forms generalizing tried with
  | nil => simp [offer]
  | cons form rest ih =>
    rw [offer, List.find?_cons]
    by_cases hform : form.tag = seen
    · simp only [hform, decide_true]
      cases hread : form.read location members with
      | ok parts => rfl
      | error refusal =>
        cases refusal with
        | otherTag => exact absurd (hform ▸ htag) (Form.read_eq_otherTag_iff.1 hread)
        | faulty faults => rfl
    · have hread : form.read location members = .error .otherTag :=
        Form.read_eq_otherTag_iff.2 fun h => hform (Option.some.inj (h.symm.trans htag))
      simp only [hread, ih, hform, decide_false, List.map_cons, List.append_assoc, List.singleton_append]

theorem readNode_eq_readTagged : g.readNode limit location depth payload =
    match heading limit location depth payload with
    | .error rejection => .error rejection
    | .ok (seen, members) => g.readTagged location seen members := by
  unfold readNode heading
  cases limit.filter (· < depth) with
  | some limit => rfl
  | none =>
    cases payload with
    | object members =>
      dsimp only
      cases hlookup : members.lookup tagKey with
      | none => rfl
      | some value =>
        cases value with
        | string seen => exact offer_eq location (Form.tag?_eq_some_iff.2 hlookup) [] g.forms
        | _ => rfl
    | _ => rfl

theorem dispatchNode_eq (location : Location) (depth : Nat) (payload : Json) :
    g.dispatchNode limit location depth payload =
      match g.readNode limit location depth payload with
      | .error rejection => .error rejection
      | .ok (.not child) => (g.dispatchNode limit (location.member "child") (depth + 1) child).map .not
      | .ok (.or children) =>
        (g.dispatchNodes limit (location.member "children") 0 (depth + 1) children).map .or
      | .ok (.and children) =>
        (g.dispatchNodes limit (location.member "children") 0 (depth + 1) children).map .and
      | .ok (.entity query) => .ok (.entity query) := by
  rw [dispatchNode, readNode_eq_readTagged]
  split
  · next hheading => rw [hheading]
  · next hheading =>
    rw [hheading]
    split <;> next hread => simp only [hread]

mutual

theorem resolveNode_eq_dispatchNode (location : Location) (depth : Nat) (payload : Json) :
    g.resolveNode limit location depth payload = g.dispatchNode limit location depth payload := by
  rw [resolveNode_eq, dispatchNode_eq]
  cases hread : g.readNode limit location depth payload with
  | error rejection => rfl
  | ok parts =>
    have hlt := sizeOf_nodes_lt hread
    cases parts with
    | not child => exact congrArg (Except.map Search.not) (resolveNode_eq_dispatchNode _ _ child)
    | or children => exact congrArg (Except.map Search.or) (resolveNodes_eq_dispatchNodes _ _ _ children)
    | and children => exact congrArg (Except.map Search.and) (resolveNodes_eq_dispatchNodes _ _ _ children)
    | entity query => rfl
termination_by sizeOf payload

theorem resolveNodes_eq_dispatchNodes (location : Location) (index depth : Nat) (payloads : List Json) :
    g.resolveNodes limit location index depth payloads =
      g.dispatchNodes limit location index depth payloads := by
  cases payloads with
  | nil => rw [resolveNodes, dispatchNodes]
  | cons payload rest =>
    rw [resolveNodes, dispatchNodes, resolveNode_eq_dispatchNode _ _ payload]
    cases g.dispatchNode limit (location.item index) depth payload with
    | error rejection => rfl
    | ok t => exact congrArg (Except.map (t :: ·)) (resolveNodes_eq_dispatchNodes _ _ _ rest)
termination_by sizeOf payloads

end

/-! ### The forms in another order -/

theorem form?_eq_of_perm (h : g.forms.Perm g'.forms) (tag : String) : g'.form? tag = g.form? tag := by
  refine Option.ext fun form => ?_
  rw [form?, form?, find?_key_eq_some_iff Form.tag g'.nodup_tags, find?_key_eq_some_iff Form.tag g.nodup_tags,
    h.mem_iff]

theorem withTried_of_heading {rejection : Rejection} (tags : List String)
    (h : heading limit location depth payload = .error rejection) : rejection.withTried tags = rejection := by
  unfold heading at h
  split at h
  · cases h
    rfl
  split at h
  · split at h <;> cases h <;> rfl
  · cases h
    rfl

theorem readNode_of_perm (h : g.forms.Perm g'.forms) : g'.readNode limit location depth payload =
    (g.readNode limit location depth payload).mapError (·.withTried g'.tags) := by
  rw [readNode_eq_readTagged, readNode_eq_readTagged]
  cases hheading : heading limit location depth payload with
  | error rejection => exact congrArg Except.error (withTried_of_heading g'.tags hheading).symm
  | ok node =>
    obtain ⟨seen, members⟩ := node
    simp only [readTagged, form?_eq_of_perm h]
    cases g.form? seen with
    | none => rfl
    | some form =>
      dsimp only
      cases form.read location members with
      | ok parts => rfl
      | error refusal => cases refusal <;> rfl

mutual

theorem resolveNode_of_perm (h : g.forms.Perm g'.forms) (location : Location) (depth : Nat) (payload : Json) :
    g'.resolveNode limit location depth payload =
      (g.resolveNode limit location depth payload).mapError (·.withTried g'.tags) := by
  rw [resolveNode_eq, resolveNode_eq, readNode_of_perm h]
  cases hread : g.readNode limit location depth payload with
  | error rejection => rfl
  | ok parts =>
    have hlt := sizeOf_nodes_lt hread
    cases parts with
    | not child =>
      exact (congrArg _ (resolveNode_of_perm h _ _ child)).trans (mapError_map ..).symm
    | or children =>
      exact (congrArg _ (resolveNodes_of_perm h _ _ _ children)).trans (mapError_map ..).symm
    | and children =>
      exact (congrArg _ (resolveNodes_of_perm h _ _ _ children)).trans (mapError_map ..).symm
    | entity query => rfl
termination_by sizeOf payload

theorem resolveNodes_of_perm (h : g.forms.Perm g'.forms) (location : Location) (index depth : Nat)
    (payloads : List Json) : g'.resolveNodes limit location index depth payloads =
      (g.resolveNodes limit location index depth payloads).mapError (·.withTried g'.tags) := by
  cases payloads with
  | nil =>
    rw [resolveNodes, resolveNodes]
    rfl
  | cons payload rest =>
    rw [resolveNodes, resolveNodes, resolveNode_of_perm h _ _ payload]
    cases g.resolveNode limit (location.item index) depth payload with
    | error rejection => rfl
    | ok t =>
      exact (congrArg _ (resolveNodes_of_perm h _ _ _ rest)).trans (mapError_map ..).symm
termination_by sizeOf payloads

end

/-- A payload is resolved to the same search or to the same faults as by dispatch on the tags. With the
forms in another order there still is a grammar, and only the tags that were tried come in that order. -/
theorem resolve_eq_dispatch {forms : List Form} {g : Grammar} (h : ofForms forms = .ok g)
    (limit : Option Nat) (payload : Json) : g.resolve limit payload = g.dispatch limit payload ∧
      ∀ forms', forms.Perm forms' → ∃ g', ofForms forms' = .ok g' ∧ g'.resolve limit payload =
        (g.resolve limit payload).mapError (·.withTried (forms'.map Form.tag)) := by
  obtain rfl := ofForms_eq_ok_iff.1 h
  refine ⟨resolveNode_eq_dispatchNode .root 1 payload, fun forms' hperm => ?_⟩
  have hnodup : (forms'.map Form.tag).Nodup := (hperm.map Form.tag).nodup_iff.1 g.nodup_tags
  exact ⟨⟨forms', hnodup⟩, ofForms_eq_ok_iff.2 rfl, resolveNode_of_perm hperm .root 1 payload⟩

/-- Forms without negation and conjunction, for an entity that no schema may have. -/
def shelfForms : List Form :=
  [.entity "Shelf" [("type", .int64), ("room", .varchar), ("room", .boolean)], .or]

/-- A shelf in the hall, or a node of an unknown kind. -/
def shelfOr (kind : String) : Json :=
  .object [("type", .string "Or"), ("children", .array [
    .object [("room", .string "hall"), ("type", .string "Shelf")],
    .object [("type", .string kind)]])]

/-- What the payload of two shelves asks for. -/
def shelfOrShelf : Search :=
  .or [.entity ((EntityQuery.ofKind "Shelf").set "room" (.string "hall")), .entity (.ofKind "Shelf")]

theorem resolve_shelfForms :
    ∃ g g', ofForms shelfForms = .ok g ∧ ofForms shelfForms.reverse = .ok g' ∧
      g.dispatch none (shelfOr "Shelf") = .ok shelfOrShelf ∧
      g'.resolve none (shelfOr "Shelf") = .ok shelfOrShelf ∧
      g.dispatch none (shelfOr "And") =
        .error (.node ⟨⟨[.member "children", .item 1]⟩, .unknownTag "And" ["Shelf", "Or"]⟩) ∧
      g'.resolve none (shelfOr "And") =
        .error (.node ⟨⟨[.member "children", .item 1]⟩, .unknownTag "And" ["Or", "Shelf"]⟩) := by
  have hg : ofForms shelfForms = .ok ⟨shelfForms, by decide⟩ := ofForms_eq_ok_iff.2 rfl
  have hperm : shelfForms.Perm shelfForms.reverse := (List.reverse_perm _).symm
  have hshelf : Grammar.resolve ⟨shelfForms, by decide⟩ none (shelfOr "Shelf") = .ok shelfOrShelf := by
    decide +kernel
  have hand : Grammar.resolve ⟨shelfForms, by decide⟩ none (shelfOr "And") =
      .error (.node ⟨⟨[.member "children", .item 1]⟩, .unknownTag "And" ["Shelf", "Or"]⟩) := by
    decide +kernel
  obtain ⟨hdispatch, hreverse⟩ := resolve_eq_dispatch hg none (shelfOr "Shelf")
  obtain ⟨hdispatch', hreverse'⟩ := resolve_eq_dispatch hg none (shelfOr "And")
  obtain ⟨g', hg', hresolve⟩ := hreverse _ hperm
  obtain ⟨g'', hg'', hresolve'⟩ := hreverse' _ hperm
  obtain rfl : g' = g'' := Except.ok.inj (hg'.symm.trans hg'')
  refine ⟨_, g', hg, hg', hdispatch.symm.trans hshelf, ?_, hdispatch'.symm.trans hand, ?_⟩
  · rw [hresolve, hshelf]
    rfl
  · rw [hresolve', hand]
    rfl

end Grammar

end EntitySearch
