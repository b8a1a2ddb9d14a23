import EntitySearch.Proofs.Search.SchemaForms

/-!
# The limit on depth

A limit cuts the reading of a payload short, and changes nothing else (`Grammar.limit_only_cuts`). Two
readings go side by side, one of them with the limit: at each node they see the same, until the one with
the limit stops at a node that is too deep (`Grammar.resolveNode_cutAt`). As far as reading succeeds, the limit bounds
the height of the search (`Grammar.resolve_eq_ok_iff`).
-/

namespace EntitySearch

/-- The first result is the second one, unless a node was too deep for the limit. -/
def CutAt {α : Type} (limit : Nat) (x y : Except Rejection α) : Prop :=
  (∃ location, x = .error (.node ⟨location, .tooDeep limit⟩)) ∨ x = y

theorem CutAt.map {α β : Type} {limit : Nat} {x y : Except Rejection α} (h : CutAt limit x y) (f : α → β) :
    CutAt limit (x.map f) (y.map f) := by
  rcases h with ⟨location, rfl⟩ | rfl
  · exact .inl ⟨location, rfl⟩
  · exact .inr rfl

namespace Grammar
variable {g : Grammar} {limit : Nat}

/-- The limit is looked at before anything else of a node. -/
theorem readNode_some (location : Location) (depth : Nat) (payload : Json) :
    g.readNode (some limit) location depth payload =
      if limit < depth then .error (.node ⟨location, .tooDeep limit⟩)
      else g.readNode none location depth payload := by
  unfold readNode
  by_cases hdeep : limit < depth
  · have hfilter : (some limit).filter (· < depth) = some limit := by simpa using hdeep
    rw [if_pos hdeep, hfilter]
  · have hfilter : (some limit).filter (· < depth) = none := by simpa using hdeep
    rw [if_neg hdeep, hfilter]
    rfl

mutual

theorem resolveNode_cutAt (location : Location) (depth : Nat) (payload : Json) :
    CutAt limit (g.resolveNode (some limit) location depth payload)
      (g.resolveNode none location depth payload) := by
  rw [resolveNode_eq, resolveNode_eq, readNode_some]
  by_cases hdeep : limit < depth
  · rw [if_pos hdeep]
    exact .inl ⟨location, rfl⟩
  rw [if_neg hdeep]
  cases hn : g.readNode none location depth payload with
  | error rejection => exact .inr rfl
  | ok parts =>
    have hlt := sizeOf_nodes_lt hn
    cases parts with
    | not child => exact (resolveNode_cutAt _ _ child).map _
    | or children => exact (resolveNodes_cutAt _ _ _ children).map _
    | and children => exact (resolveNodes_cutAt _ _ _ children).map _
    | entity query => exact .inr rfl
termination_by sizeOf payload

theorem resolveNodes_cutAt (location : Location) (index depth : Nat) (payloads : List Json) :
    CutAt limit (g.resolveNodes (some limit) location index depth payloads)
      (g.resolveNodes none location index depth payloads) := by
  cases payloads with
  | nil =>
    rw [resolveNodes, resolveNodes]
    exact .inr rfl
  | cons payload rest =>
    rw [resolveNodes, resolveNodes]
    rcases resolveNode_cutAt (location.item index) depth payload with ⟨deep, hcut⟩ | heq
    · rw [hcut]
      exact .inl ⟨deep, rfl⟩
    rw [heq]
    cases g.resolveNode none (location.item index) depth payload with
    | error rejection => exact .inr rfl
    | ok t => exact (resolveNodes_cutAt location (index + 1) depth rest).map _
termination_by sizeOf payloads

end

theorem resolve_cutAt (g : Grammar) (limit : Nat) (payload : Json) :
    CutAt limit (g.resolve (some limit) payload) (g.resolve none payload) :=
  resolveNode_cutAt .root 1 payload

theorem resolve_some_eq_ok_iff {payload : Json} {t : Search} : g.resolve (some limit) payload = .ok t ↔
    g.resolve none payload = .ok t ∧ t.height ≤ limit := by
  simp [resolve_eq_ok_iff]

/-- With a limit, reading gives the searches that it gives without, as long as they are not too high, and
fails with the faults that it has without, unless the fault is the depth. A higher limit cuts less. -/
theorem limit_only_cuts (g : Grammar) (limit : Nat) (payload : Json) :
    (∀ t, g.resolve (some limit) payload = .ok t ↔
      g.resolve none payload = .ok t ∧ t.height ≤ limit) ∧
      (∀ rejection, g.resolve (some limit) payload = .error rejection →
        (∀ location, rejection.faults ≠ [⟨location, .tooDeep limit⟩]) →
          g.resolve none payload = .error rejection) ∧
      ∀ higher t, limit ≤ higher → g.resolve (some limit) payload = .ok t →
        g.resolve (some higher) payload = .ok t := by
  refine ⟨fun t => resolve_some_eq_ok_iff, fun rejection h hother => ?_, fun higher t hle h => ?_⟩
  · rcases g.resolve_cutAt limit payload with ⟨location, hcut⟩ | heq
    · have hrejection : rejection = .node ⟨location, .tooDeep limit⟩ :=
        Except.error.inj (h.symm.trans hcut)
      exact absurd (hrejection ▸ rfl) (hother location)
    · exact heq.symm.trans h
  · obtain ⟨ht, hheight⟩ := resolve_some_eq_ok_iff.1 h
    exact resolve_some_eq_ok_iff.2 ⟨ht, Nat.le_trans hheight hle⟩

def usersAndCompanies : Grammar := (Engine.usersAndCompanies none).grammar

/-- Companies by some field, or what is not not a user. -/
def companyOrUser (field : String) : Json :=
  .object [
    ("type", .string "Or"),
    ("children", .array [
      .object [("type", .string "Company"), (field, .string "Acme")],
      .object [("type", .string "Not"), ("child",
        .object [("type", .string "Not"), ("child", .object [("type", .string "User")])])]])]

/-- There are four nodes on the way to the user, and a lower limit cuts there, unless the company, which
comes first, has a fault of its own. -/
theorem limit_only_cuts_companyOrUser :
    ∃ t rejection, usersAndCompanies.resolve none (companyOrUser "name") = .ok t ∧ t.height ≤ 4 ∧
      usersAndCompanies.resolve (some 4) (companyOrUser "name") = .ok t ∧
      usersAndCompanies.resolve (some 5) (companyOrUser "name") = .ok t ∧
      usersAndCompanies.resolve (some 3) (companyOrUser "name") =
        .error (.node ⟨⟨[.member "children", .item 1, .member "child", .member "child"]⟩, .tooDeep 3⟩) ∧
      usersAndCompanies.resolve (some 3) (companyOrUser "bogus") = .error rejection ∧
      usersAndCompanies.resolve none (companyOrUser "bogus") = .error rejection := by
  have hfour : usersAndCompanies.resolve (some 4) (companyOrUser "name") = .ok (.or [
      .entity ((EntityQuery.ofKind "Company").set "name" (.string "Acme")),
      .not (.not (.entity (.ofKind "User")))]) := by
    decide +kernel
  have hbogus : usersAndCompanies.resolve (some 3) (companyOrUser "bogus") =
      .error (.fields ⟨[.member "children", .item 0]⟩ "Company"
        [⟨⟨[.member "children", .item 0, .member "bogus"]⟩, .unknownField "Company" "bogus"⟩]) := by
    decide +kernel
  obtain ⟨hiff, -, hmono⟩ := usersAndCompanies.limit_only_cuts 4 (companyOrUser "name")
  obtain ⟨-, hsame, -⟩ := usersAndCompanies.limit_only_cuts 3 (companyOrUser "bogus")
  obtain ⟨hnone, hheight⟩ := (hiff _).1 hfour
  have hother : ∀ location, Rejection.faults (.fields ⟨[.member "children", .item 0]⟩ "Company"
      [⟨⟨[.member "children", .item 0, .member "bogus"]⟩, .unknownField "Company" "bogus"⟩]) ≠
        [⟨location, .tooDeep 3⟩] := by
    intro location h
    cases h
  exact ⟨_, _, hnone, hheight, hfour, hmono 5 _ (by decide) hfour, by decide +kernel, hbogus,
    hsame _ hbogus hother⟩

end Grammar

end EntitySearch
