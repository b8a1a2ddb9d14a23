import EntitySearch.Proofs.Search.SchemaForms
import EntitySearch.Proofs.Search.Violations
import EntitySearch.Proofs.Search.Walk

/-!
# Which node is to blame

The faults of a payload are those of one of its nodes, the first one that cannot be resolved, and each of
them points at the value it speaks of (`Grammar.exists_blamed_node`), by cause (`Fault.Blames`). The invariant on the
way down is that the node that was reached failed with the rejection, while all operands to its left were resolved
(`Grammar.ResolvesBefore`).
-/

namespace EntitySearch

/-- The fault says what is the case at the node that the descents lead to. -/
def Fault.Blames (payload : Json) (q : List Descent) (f : Fault) : Prop :=
  match f.cause with
  | .notAnObject received =>
    f.location = .ofDescents q ∧ payload.at? f.location = some received ∧ received.isObject = false
  | .missingTag =>
    f.location = .ofDescents q ∧ ∃ members, payload.at? f.location = some (.object members) ∧
      ∀ value, members.lookup tagKey = some value → value = .null
  | .unknownTag seen _ =>
    f.location = .ofDescents q ∧ ∃ members, payload.at? f.location = some (.object members) ∧
      members.lookup tagKey = some (.string seen)
  | .unknownField _ field =>
    f.location = (Location.ofDescents q).member field ∧ ∃ value, payload.at? f.location = some value
  | .wrongShape _ received =>
    (∃ field, f.location = (Location.ofDescents q).member field) ∧
      payload.at? f.location = some received
  | .missingField _ field =>
    f.location = (Location.ofDescents q).member field ∧
      ∃ members, payload.at? (.ofDescents q) = some (.object members) ∧
        ∀ value, members.lookup field = some value → value = .null
  | .missingChild =>
    f.location = (Location.ofDescents q).member "child" ∧
      ∃ members, payload.at? (.ofDescents q) = some (.object members) ∧
        ∀ value, members.lookup "child" = some value → value = .null
  | .tooDeep limit => f.location = .ofDescents q ∧ q.length = limit

/-- The faults of a rejection, of which there are some, are at different places of one node. -/
structure Rejection.Blames (rejection : Rejection) (payload : Json) (q : List Descent) : Prop where
  nonempty : rejection.faults ≠ []
  distinct : (rejection.faults.map Fault.location).Nodup
  defined : ∃ node, payload.at? (.ofDescents q) = some node
  blames : ∀ f ∈ rejection.faults, f.Blames payload q

namespace Form
variable {form : Form} {location : Location} {members : List (String × Json)} {name : String} {value : Json}
  {f : Fault}

theorem location_of_memberFault? (h : form.memberFault? location name value = some f) :
    f.location = location.member name := by
  cases memberFault?_eq_some_iff.1 h <;> rfl

theorem location_lackFault (form : Form) (location : Location) (name : String) :
    (form.lackFault location name).location = location.member name := by
  cases form <;> rfl

/-- A fault is of a member that is there, or of a field that is required and lacking. -/
theorem mem_faults_iff : f ∈ form.faults location members ↔
    (∃ name value, (name, value) ∈ members ∧ form.memberFault? location name value = some f) ∨
      ∃ field ∈ form.fields, field.required ∧ lacks members field.name ∧
        form.lackFault location field.name = f := by
  simp only [faults, List.mem_append, List.mem_filterMap, Prod.exists, List.mem_map, List.mem_filter,
    Bool.and_eq_true, and_assoc]

theorem pairwise_required (form : Form) (P : FormField → Bool) {R : FormField → FormField → Prop} :
    (form.fields.filter fun field => field.required && P field).Pairwise R := by
  cases form with
  | not | or | and => exact (List.pairwise_singleton R _).filter _
  | entity kind fields =>
    have hnone : ((Form.entity kind fields).fields.filter fun field => field.required && P field) = [] := by
      refine List.filter_eq_nil_iff.2 fun field hfield => ?_
      obtain ⟨_, -, rfl⟩ := List.mem_map.1 hfield
      exact Bool.false_ne_true
    rw [hnone]
    exact .nil

theorem nodup_faults (hnd : (members.map Prod.fst).Nodup) :
    ((form.faults location members).map Fault.location).Nodup := by
  refine List.pairwise_map.2 (List.pairwise_append.2 ⟨?_, ?_, ?_⟩)
  · refine (List.pairwise_map.1 hnd).filterMap _ ?_
    rintro m n hne f hf f' hf' heq
    rw [location_of_memberFault? hf, location_of_memberFault? hf', Location.member_inj] at heq
    exact hne heq
  · exact List.pairwise_map.2 (form.pairwise_required _)
  · -- A member that is at fault is not `null`, so its field is not lacking, unless it has none.
    rintro f hf f' hf' heq
    obtain ⟨⟨name, value⟩, hmem, hf⟩ := List.mem_filterMap.1 hf
    obtain ⟨field, hfield, rfl⟩ := List.mem_map.1 hf'
    obtain ⟨hfield, hlacks⟩ := List.mem_filter.1 hfield
    rw [location_of_memberFault? hf, location_lackFault, Location.member_inj] at heq
    cases memberFault?_eq_some_iff.1 hf with
    | unknown _ hnone => exact hnone field hfield heq.symm
    | shape _ _ given =>
      exact given ((lacks_iff_mem hnd).1 (Bool.and_eq_true _ _ ▸ hlacks).2 value (heq ▸ hmem))

variable {payload : Json} {q : List Descent}

theorem blames_of_mem_faults (hat : payload.at? (.ofDescents q) = some (.object members))
    (hnd : (members.map Prod.fst).Nodup) (hf : f ∈ form.faults (.ofDescents q) members) :
    f.Blames payload q := by
  rcases mem_faults_iff.1 hf with ⟨name, value, hmem, hf⟩ | ⟨field, hfield, -, hlacks, rfl⟩
  · have hvalue : payload.at? ((Location.ofDescents q).member name) = some value := by
      rw [Json.at?_member_of_at? hat, (lookup_eq_some_iff_mem hnd).2 hmem]
    cases memberFault?_eq_some_iff.1 hf with
    | unknown => exact ⟨rfl, value, hvalue⟩
    | shape => exact ⟨⟨name, rfl⟩, hvalue⟩
  · have habsent := lacks_iff.1 hlacks
    cases form with
    | not =>
      obtain rfl := List.mem_singleton.1 hfield
      exact ⟨rfl, members, hat, habsent⟩
    | or | and | entity => exact ⟨rfl, members, hat, habsent⟩

end Form

namespace Grammar
variable {g : Grammar} {limit : Option Nat} {payload node : Json} {q : List Descent} {rejection : Rejection}

theorem offer_eq_error {location : Location} {members : List (String × Json)} {seen : String}
    {tried : List String} {forms : List Form}
    (h : offer location members seen tried forms = .error rejection) :
    (∃ tags, rejection = .node ⟨location, .unknownTag seen tags⟩) ∨
      ∃ form : Form, form.faults location members ≠ [] ∧
        rejection = .fields location form.tag (form.faults location members) := by
  induction forms generalizing tried with
  | nil =>
    cases h
    exact .inl ⟨tried, rfl⟩
  | cons form rest ih =>
    rw [offer] at h
    split at h
    · cases h
    · exact ih h
    · next faults hr =>
      cases h
      obtain ⟨htag, hadmits, rfl⟩ := Form.read_eq_faulty_iff.1 hr
      exact .inr ⟨form, fun hnil => hadmits ((Form.admits_iff location).2 ⟨htag, hnil⟩), rfl⟩

theorem blames_single {f : Fault} (hat : payload.at? (.ofDescents q) = some node)
    (hf : f.Blames payload q) : (Rejection.node f).Blames payload q where
  nonempty := List.cons_ne_nil f []
  distinct := List.nodup_singleton _
  defined := ⟨node, hat⟩
  blames := List.forall_mem_singleton.2 hf

theorem blames_of_readNode (hat : payload.at? (.ofDescents q) = some node) (hd : node.hasDistinctKeys)
    (hlimit : ∀ l ∈ limit, q.length ≤ l)
    (h : g.readNode limit (.ofDescents q) (q.length + 1) node = .error rejection) :
    rejection.Blames payload q := by
  unfold readNode at h
  split at h
  · next l hl =>
    cases h
    obtain ⟨rfl, hlt⟩ := Option.filter_eq_some_iff.1 hl
    have hdeep : l < q.length + 1 := of_decide_eq_true hlt
    have hle : q.length ≤ l := hlimit l rfl
    exact blames_single hat ⟨rfl, by omega⟩
  · cases node with
    | object members =>
      obtain ⟨hnd, -⟩ := Json.hasDistinctKeys_object_iff.1 hd
      simp only at h
      split at h
      · next hnone =>
        cases h
        exact blames_single hat ⟨rfl, members, hat, by simp [hnone]⟩
      · next hnull =>
        cases h
        exact blames_single hat ⟨rfl, members, hat, by simp [hnull]⟩
      · next seen hseen =>
        rcases offer_eq_error h with ⟨tags, rfl⟩ | ⟨form, hne, rfl⟩
        · exact blames_single hat ⟨rfl, members, hat, hseen⟩
        · exact ⟨hne, Form.nodup_faults hnd, ⟨_, hat⟩, fun f hf => Form.blames_of_mem_faults hat hnd hf⟩
      · next other _ _ hother =>
        cases h
        exact blames_single hat ⟨⟨tagKey, rfl⟩, (Json.at?_member_of_at? hat tagKey).trans hother⟩
    | null | bool _ | number _ | string _ | array _ =>
      cases h
      exact blames_single hat ⟨rfl, hat, rfl⟩

/-- All operands are resolved that are to the left of the node or of a node above it, each as deep as it
is. -/
def ResolvesBefore (g : Grammar) (limit : Option Nat) (payload : Json) (q : List Descent) : Prop :=
  ∀ above index below, q = above ++ .item index :: below → ∀ i < index, ∃ sibling t,
    payload.at? (.ofDescents (above ++ [.item i])) = some sibling ∧
      g.resolveNode limit (.ofDescents (above ++ [.item i])) (above.length + 2) sibling = .ok t

theorem resolvesBefore_nil : g.ResolvesBefore limit payload [] := by
  intro above index below h
  cases above <;> cases h

theorem ResolvesBefore.concat {d : Descent} {operand : Json} (h : g.ResolvesBefore limit payload q)
    (hat : payload.at? (.ofDescents q) = some node)
    (hfails : g.FailsAt limit (.ofDescents q) (q.length + 1) node rejection d operand) :
    g.ResolvesBefore limit payload (q ++ [d]) := by
  intro above index below heq i hi
  rcases List.eq_nil_or_concat below with rfl | ⟨below, last, rfl⟩
  · obtain ⟨rfl, hlast⟩ := List.append_inj' heq rfl
    obtain rfl : d = .item index := by simpa using hlast
    obtain ⟨sibling, t, hsibling, hok⟩ := hfails.before index rfl i hi
    refine ⟨sibling, t, ?_, ?_⟩
    · rw [Location.ofDescents_concat, Json.at?_down_of_at? hat, hsibling]
    · rw [Location.ofDescents_concat]
      exact hok
  · have heq : q ++ [d] = (above ++ .item index :: below) ++ [last] := by simpa using heq
    obtain ⟨rfl, -⟩ := List.append_inj' heq rfl
    exact h above index below rfl i hi

/-- By induction on the node that was reached: the failure is its own, or that of its first operand that
cannot be resolved, which is smaller. -/
theorem exists_blamed_below {q : List Descent} {node : Json}
    (hat : payload.at? (.ofDescents q) = some node) (hd : node.hasDistinctKeys)
    (hlimit : ∀ l ∈ limit, q.length ≤ l) (hbefore : g.ResolvesBefore limit payload q)
    (h : g.resolveNode limit (.ofDescents q) (q.length + 1) node = .error rejection) :
    ∃ q', rejection.Blames payload q' ∧ g.ResolvesBefore limit payload q' := by
  rcases exists_descent_of_resolveNode hd h with h | ⟨hdepth, d, operand, hfails⟩
  · exact ⟨q, blames_of_readNode hat hd hlimit h, hbefore⟩
  have hlength : (q ++ [d]).length = q.length + 1 := by simp
  have hat' : payload.at? (.ofDescents (q ++ [d])) = some operand := by
    rw [Location.ofDescents_concat, Json.at?_down_of_at? hat, hfails.reached]
  have := hfails.smaller
  refine exists_blamed_below hat' hfails.distinct ?_ (hbefore.concat hat hfails) ?_
  · rw [hlength]
    exact hdepth
  · rw [hlength, Location.ofDescents_concat]
    exact hfails.fails
termination_by sizeOf node

/-- The faults of a payload are those of one node, which is the first that cannot be resolved. -/
theorem exists_blamed_node (hd : payload.hasDistinctKeys)
    (h : g.resolve limit payload = .error rejection) :
    ∃ q, rejection.Blames payload q ∧ g.ResolvesBefore limit payload q :=
  exists_blamed_below Json.at?_root hd (by simp) resolvesBefore_nil h

/-- A user, or not a user of a company, with two faults in what the user is asked for. -/
def badCompany : Json :=
  .object [
    ("type", .string "Or"),
    ("children", .array [
      .object [("type", .string "User"), ("last_name", .string "Doe")],
      .object [("type", .string "Not"), ("child", .object [
        ("type", .string "User"), ("company_id", .string "42"), ("bogus", .null)])]])]

theorem exists_blamed_node_badCompany :
    badCompany.hasDistinctKeys ∧
      ∃ rejection,
        (Engine.usersAndCompanies (some 3)).grammar.resolve (some 3) badCompany = .error rejection ∧
        rejection.faults.map Fault.text = [
          "children[1].child.company_id: expected int64, received \"42\"",
          "children[1].child.bogus: unknown field 'bogus' for User node"] ∧
        ∃ q, rejection.Blames badCompany q ∧
          (Engine.usersAndCompanies (some 3)).grammar.ResolvesBefore (some 3) badCompany q := by
  have hd : badCompany.hasDistinctKeys := by decide
  have h : (Engine.usersAndCompanies (some 3)).grammar.resolve (some 3) badCompany =
      .error (.fields (.ofDescents [.item 1, .child]) "User" [
        ⟨(Location.ofDescents [.item 1, .child]).member "company_id", .wrongShape "int64" (.string "42")⟩,
        ⟨(Location.ofDescents [.item 1, .child]).member "bogus", .unknownField "User" "bogus"⟩]) := by
    decide +kernel
  exact ⟨hd, _, h, by decide +kernel, exists_blamed_node hd h⟩

end Grammar

end EntitySearch
