import EntitySearch.Proofs.Scalar
import EntitySearch.Proofs.Search.Operators

/-!
# All that is wrong with a node

A node that carries the tag of a form is read if it is sound (`Form.Sound`). Otherwise all violations are
reported, each of them once and nothing else, first those of the members in their order and then the required
fields that have no value, in the order of the form (`Form.read_reports_violations`). No violation belongs to both
parts: a required field of another shape has a value, and one that is `null` is missing.
-/

namespace EntitySearch

/-- The values of a shape. There is no `null` among them. -/
inductive Shape.Describes : Shape → Json → Prop
  | node {members} : Describes .node (.object members)
  | nodes {items} : Describes .nodes (.array items)
  | scalar {type value v} (h : Scalar.Literal type value v) : Describes (.scalar type) value

theorem Shape.admits_iff {shape : Shape} {value : Json} (hvalue : value ≠ .null) :
    shape.admits value ↔ shape.Describes value := by
  cases shape with
  | node =>
    constructor
    · intro h
      cases value with
      | object members => exact .node
      | _ => cases h
    · rintro ⟨⟩
      rfl
  | nodes =>
    constructor
    · intro h
      cases value with
      | array items => exact .nodes
      | _ => cases h
    · rintro ⟨⟩
      rfl
  | scalar type =>
    rw [admits, Scalar.isSome_ofJson?_iff, or_iff_right hvalue]
    constructor
    · rintro ⟨v, h⟩
      exact .scalar h
    · intro h
      cases h with
      | scalar h => exact ⟨_, h⟩

/-- The faults are one for each item that is at fault, in the order of the items. -/
inductive Reported {α : Type} (fault : α → Fault → Prop) : List α → List Fault → Prop
  | nil : Reported fault [] []
  | sound {x xs fs} (none : ∀ f, ¬ fault x f) (later : Reported fault xs fs) : Reported fault (x :: xs) fs
  | faulty {x f xs fs} (h : fault x f) (later : Reported fault xs fs) : Reported fault (x :: xs) (f :: fs)

theorem reported_iff {α : Type} {fault : α → Fault → Prop} {fault? : α → Option Fault}
    (h : ∀ x f, fault? x = some f ↔ fault x f) {xs : List α} {fs : List Fault} :
    Reported fault xs fs ↔ fs = xs.filterMap fault? := by
  constructor
  · intro hr
    induction hr with
    | nil => rfl
    | @sound x xs fs hnone _ ih =>
      have hx : fault? x = none := Option.eq_none_iff_forall_ne_some.2 fun f hf => hnone f ((h x f).1 hf)
      rw [List.filterMap_cons_none hx, ih]
    | @faulty x f xs fs hf _ ih => rw [List.filterMap_cons_some ((h x f).2 hf), ih]
  · rintro rfl
    induction xs with
    | nil => exact .nil
    | cons x xs ih =>
      cases hx : fault? x with
      | none =>
        rw [List.filterMap_cons_none hx]
        exact .sound (fun f hf => by rw [(h x f).2 hf] at hx; cases hx) ih
      | some f =>
        rw [List.filterMap_cons_some hx]
        exact .faulty ((h x f).1 hx) ih

namespace Form

/-- The field that counts for a name, the first one of that name. -/
def Declares (form : Form) (name : String) (field : FormField) : Prop :=
  ∃ before after, form.fields = before ++ field :: after ∧ field.name = name ∧ ∀ f ∈ before, f.name ≠ name

structure Sound (form : Form) (members : List (String × Json)) : Prop where
  known : ∀ name value, (name, value) ∈ members → name ≠ tagKey → ∃ field, form.Declares name field
  shaped : ∀ name value field, (name, value) ∈ members → name ≠ tagKey → form.Declares name field →
    value ≠ .null → field.shape.Describes value
  complete : ∀ field ∈ form.fields, field.required → ∃ value, (field.name, value) ∈ members ∧ value ≠ .null

/-- What is wrong with a member of a node. -/
inductive MemberFault (form : Form) (location : Location) : String × Json → Fault → Prop
  | unknown {name value} (other : name ≠ tagKey) (h : ∀ field ∈ form.fields, field.name ≠ name) :
      MemberFault form location (name, value) ⟨location.member name, .unknownField form.tag name⟩
  | shape {name value field} (other : name ≠ tagKey) (declared : form.Declares name field)
      (given : value ≠ .null) (h : ¬ field.shape.Describes value) :
      MemberFault form location (name, value) ⟨location.member name, .wrongShape field.shape.text value⟩

/-- What is wrong where a node has no value for a field. -/
inductive LackFault (location : Location) (members : List (String × Json)) : Form → FormField → Fault → Prop
  | child {field} (required : field.required)
      (h : ∀ value, (field.name, value) ∈ members → value = .null) :
      LackFault location members .not field ⟨location.member field.name, .missingChild⟩
  | field {form field} (other : form ≠ .not) (required : field.required)
      (h : ∀ value, (field.name, value) ∈ members → value = .null) :
      LackFault location members form field ⟨location.member field.name, .missingField form.tag field.name⟩

variable {form : Form} {location : Location} {members : List (String × Json)} {name : String} {value : Json}
  {field : FormField} {f : Fault}

theorem field?_eq_some_iff : form.field? name = some field ↔ form.Declares name field := by
  simp only [field?, List.find?_eq_some_iff_append, decide_eq_true_iff, Bool.not_eq_true',
    decide_eq_false_iff_not, Declares]
  constructor
  · rintro ⟨hname, before, after, hfields, hbefore⟩
    exact ⟨before, after, hfields, hname, hbefore⟩
  · rintro ⟨before, after, hfields, hname, hbefore⟩
    exact ⟨hname, before, after, hfields, hbefore⟩

theorem Declares.unique {field' : FormField} (h : form.Declares name field) (h' : form.Declares name field') :
    field = field' :=
  Option.some.inj ((field?_eq_some_iff.2 h).symm.trans (field?_eq_some_iff.2 h'))

theorem field?_eq_none_iff : form.field? name = none ↔ ∀ field ∈ form.fields, field.name ≠ name := by
  simp [field?]

theorem memberFault?_eq_some_iff :
    form.memberFault? location name value = some f ↔ form.MemberFault location (name, value) f := by
  unfold memberFault?
  by_cases ht : name = tagKey
  · rw [if_pos ht]
    constructor
    · rintro ⟨⟩
    · rintro (⟨other, -⟩ | ⟨other, -, -, -⟩)
      · exact absurd ht other
      · exact absurd ht other
  rw [if_neg ht]
  cases hfield : form.field? name with
  | none =>
    have hnone := field?_eq_none_iff.1 hfield
    constructor
    · rintro ⟨⟩
      exact .unknown ht hnone
    · rintro (_ | ⟨-, hdeclared, -, -⟩)
      · rfl
      · rw [field?_eq_some_iff.2 hdeclared] at hfield
        cases hfield
  | some field =>
    have hdeclared := field?_eq_some_iff.1 hfield
    simp only [Option.ite_none_left_eq_some, Option.some.injEq, Bool.or_eq_true, not_or, Json.isNull_iff]
    constructor
    · rintro ⟨⟨hnull, hshape⟩, rfl⟩
      exact .shape ht hdeclared hnull fun h => hshape ((Shape.admits_iff hnull).2 h)
    · rintro (⟨-, hunknown⟩ | ⟨-, hdeclared', hnull, hshape⟩)
      · rw [field?_eq_none_iff.2 hunknown] at hfield
        cases hfield
      · obtain rfl := hdeclared.unique hdeclared'
        exact ⟨⟨hnull, fun h => hshape ((Shape.admits_iff hnull).1 h)⟩, rfl⟩

theorem lacks_iff_mem (hnd : (members.map Prod.fst).Nodup) :
    lacks members name ↔ ∀ value, (name, value) ∈ members → value = .null := by
  simp only [lacks_iff, lookup_eq_some_iff_mem hnd]

theorem lackFault_eq_iff (hnd : (members.map Prod.fst).Nodup) :
    ((field.required && lacks members field.name) ∧ form.lackFault location field.name = f) ↔
      LackFault location members form field f := by
  rw [Bool.and_eq_true, lacks_iff_mem hnd]
  constructor
  · rintro ⟨⟨hrequired, hnull⟩, rfl⟩
    cases form with
    | not => exact .child hrequired hnull
    | or | and | entity => exact .field nofun hrequired hnull
  · rintro (⟨hrequired, hnull⟩ | ⟨hother, hrequired, hnull⟩)
    · exact ⟨⟨hrequired, hnull⟩, rfl⟩
    · refine ⟨⟨hrequired, hnull⟩, ?_⟩
      cases form with
      | not => exact absurd rfl hother
      | or | and | entity => rfl

theorem eq_faults_iff (hnd : (members.map Prod.fst).Nodup) {fs : List Fault} :
    fs = form.faults location members ↔ ∃ ofMembers ofFields, fs = ofMembers ++ ofFields ∧
      Reported (form.MemberFault location) members ofMembers ∧
      Reported (LackFault location members form) form.fields ofFields := by
  have hmembers (fs : List Fault) : Reported (form.MemberFault location) members fs ↔
      fs = members.filterMap fun m => form.memberFault? location m.1 m.2 :=
    reported_iff fun _ _ => memberFault?_eq_some_iff
  have hfields (fs : List Fault) : Reported (LackFault location members form) form.fields fs ↔
      fs = (form.fields.filter fun f => f.required && lacks members f.name).map fun f =>
        form.lackFault location f.name := by
    rw [← List.filterMap_eq_map', List.filterMap_filter]
    refine reported_iff fun field f => ?_
    rw [← lackFault_eq_iff hnd, Option.ite_none_right_eq_some, Option.some.injEq]
  simp only [hmembers, hfields, faults]
  constructor
  · intro h
    exact ⟨_, _, h, rfl, rfl⟩
  · rintro ⟨_, _, h, rfl, rfl⟩
    exact h

theorem sound_iff_admits (hnd : (members.map Prod.fst).Nodup) (htag : (tagKey, .string form.tag) ∈ members) :
    form.Sound members ↔ form.Admits members := by
  constructor
  · intro h
    refine ⟨(tag?_eq_some_iff_mem hnd).2 htag, fun (name, value) hm hne => ?_, fun field hf hreq hlacks => ?_⟩
    · obtain ⟨field, hdeclared⟩ := h.known name value hm hne
      refine ⟨field, field?_eq_some_iff.2 hdeclared, ?_⟩
      by_cases hnull : value = .null
      · exact .inl (Json.isNull_iff.2 hnull)
      · exact .inr ((Shape.admits_iff hnull).2 (h.shaped name value field hm hne hdeclared hnull))
    · obtain ⟨value, hm, hnull⟩ := h.complete field hf hreq
      exact hnull ((lacks_iff_mem hnd).1 hlacks value hm)
  · intro h
    refine ⟨fun name value hm hne => ?_, fun name value field hm hne hdeclared hnull => ?_, fun field hf hreq => ?_⟩
    · obtain ⟨field, hfield, -⟩ := h.known _ hm hne
      exact ⟨field, field?_eq_some_iff.1 hfield⟩
    · obtain ⟨field', hfield, hvalue⟩ := h.known _ hm hne
      obtain rfl := (field?_eq_some_iff.1 hfield).unique hdeclared
      exact (Shape.admits_iff hnull).1 (hvalue.resolve_left fun h => hnull (Json.isNull_iff.1 h))
    · by_contra hnone
      refine h.complete field hf hreq ((lacks_iff_mem hnd).2 fun value hm => ?_)
      by_contra hnull
      exact hnone ⟨value, hm, hnull⟩

theorem read_eq_error_iff (htag : tag? members = some form.tag) {refusal : Refusal} :
    form.read location members = .error refusal ↔
      ¬ form.Admits members ∧ refusal = .faulty (form.faults location members) := by
  cases refusal with
  | otherTag => simp [read_eq_otherTag_iff, htag]
  | faulty faults => rw [read_eq_faulty_iff, Refusal.faulty.injEq, and_iff_right htag]

/-- A node with the tag of the form is read iff it is sound, and otherwise all its violations are reported:
those of its members in their order, then the required fields without a value. -/
theorem read_reports_violations (location : Location) (hnd : (members.map Prod.fst).Nodup)
    (htag : (tagKey, .string form.tag) ∈ members) :
    ((∃ parts, form.read location members = .ok parts) ↔ form.Sound members) ∧
      ∀ refusal, form.read location members = .error refusal ↔ ¬ form.Sound members ∧
        ∃ ofMembers ofFields, refusal = .faulty (ofMembers ++ ofFields) ∧
          Reported (form.MemberFault location) members ofMembers ∧
          Reported (LackFault location members form) form.fields ofFields := by
  have htag? : tag? members = some form.tag := (tag?_eq_some_iff_mem hnd).2 htag
  rw [sound_iff_admits hnd htag]
  constructor
  · simp only [read_eq_ok_iff, exists_and_left, exists_eq, and_true]
  · intro refusal
    rw [read_eq_error_iff htag?]
    refine and_congr_right fun _ => ?_
    constructor
    · rintro rfl
      obtain ⟨ofMembers, ofFields, heq, hmembers, hfields⟩ := (eq_faults_iff hnd).1 rfl
      exact ⟨ofMembers, ofFields, congrArg _ heq, hmembers, hfields⟩
    · rintro ⟨ofMembers, ofFields, rfl, hmembers, hfields⟩
      exact congrArg _ ((eq_faults_iff hnd).2 ⟨ofMembers, ofFields, rfl, hmembers, hfields⟩)

/-- A conjunction with the operand of a negation, a member that no form knows, and no operands. -/
def childlessConjunction : List (String × Json) :=
  [("x", .null), ("type", .string "And"), ("children", .null), ("child", .object [])]

theorem read_childlessConjunction :
    (childlessConjunction.map Prod.fst).Nodup ∧ (tagKey, .string and.tag) ∈ childlessConjunction ∧
      ¬ and.Sound childlessConjunction ∧
      ∃ ofMembers ofFields, ofMembers ++ ofFields = [
          ⟨Location.root.member "x", .unknownField "And" "x"⟩,
          ⟨Location.root.member "child", .unknownField "And" "child"⟩,
          ⟨Location.root.member "children", .missingField "And" "children"⟩] ∧
        Reported (and.MemberFault .root) childlessConjunction ofMembers ∧
        Reported (LackFault .root childlessConjunction and) and.fields ofFields := by
  have hnd : (childlessConjunction.map Prod.fst).Nodup := by decide
  have htag : (tagKey, .string and.tag) ∈ childlessConjunction := by decide
  have hread : and.read .root childlessConjunction =
      .error (.faulty (and.faults .root childlessConjunction)) := rfl
  obtain ⟨hsound, ofMembers, ofFields, heq, hreported⟩ :=
    ((read_reports_violations .root hnd htag).2 _).1 hread
  exact ⟨hnd, htag, hsound, ofMembers, ofFields, (Refusal.faulty.inj heq).symm, hreported⟩

end Form

end EntitySearch
