import EntitySearch.Proofs.Json.MemberOrder
import EntitySearch.Proofs.Number.Finite
import EntitySearch.Proofs.Search.Derivation
import EntitySearch.Proofs.Search.RoundTrip

/-!
# Normal forms of payloads

`Payload.normal` is a payload without what makes no difference: the `null` members of entity nodes are
gone, and a number in a field for doubles is the double. Reading a payload and writing the search back
gives the normal form, members in whatever order (`Engine.toPayload_of_resolve`). The members of an entity node and the
wishes of its query correspond one to one, both having different names.
-/

namespace EntitySearch

/-- A value as it is written in a field of the type. -/
def ScalarType.normal : ScalarType → Json → Json
  | .float64, .number n => .number n.toDouble
  | _, value => value

namespace Entity

def normalValue (e : Entity) (name : String) (value : Json) : Json :=
  match e.field? name with
  | some f => f.type.normal value
  | none => value

/-- The members of a node about the entity that are not `null`, as they are written in their fields. -/
def normalMembers (e : Entity) (members : List (String × Json)) : List (String × Json) :=
  (members.filter fun m => !m.2.isNull).map fun m => (m.1, e.normalValue m.1 m.2)

end Entity

namespace Payload

mutual

def normal (s : Schema) : Json → Json
  | .object members => match (Form.tag? members).bind s.entity? with
    | some e => .object (e.normalMembers members)
    | none => .object (normalMembers s members)
  | .array items => .array (normalItems s items)
  | value => value

def normalItems (s : Schema) : List Json → List Json
  | [] => []
  | item :: rest => normal s item :: normalItems s rest

def normalMembers (s : Schema) : List (String × Json) → List (String × Json)
  | [] => []
  | (name, value) :: rest => (name, normal s value) :: normalMembers s rest

end

theorem normalMembers_eq_map (s : Schema) (members : List (String × Json)) :
    normalMembers s members = members.map fun m => (m.1, normal s m.2) := by
  induction members with
  | nil => rfl
  | cons m rest ih => rw [normalMembers, ih, List.map_cons]

end Payload

namespace JsonNumber

theorem ofInt64_of_toInt64? {n : JsonNumber} {i : Int64} (h : n.toInt64? = some i) : ofInt64 i = n := by
  cases n with
  | float x finite => cases h
  | int value lower upper =>
    obtain ⟨hsmall, rfl⟩ : value < 0x8000000000000000 ∧ Int64.ofInt value = i := by
      simpa [toInt64?] using h
    simp only [ofInt64, Int64.toInt_ofInt_of_le (n := value) lower hsmall]

end JsonNumber

namespace Scalar
variable {type : ScalarType} {json : Json} {v : Scalar}

theorem toJson_of_ofJson? (h : ofJson? type json = some v) : v.toJson = type.normal json := by
  by_cases hv : v = .null
  · subst hv
    rw [ofJson?_eq_null_iff.1 h]
    cases type <;> rfl
  · cases literal_iff.2 ⟨h, hv⟩ with
    | bool => rfl
    | int small => exact congrArg Json.number (JsonNumber.ofInt64_of_toInt64? (if_pos small))
    | @integral n lower upper => exact dif_pos (JsonNumber.int n lower upper).isFinite_toBinary64
    | @fractional x finite => exact dif_pos finite
    | string => rfl

theorem isFinite_of_ofJson? (h : ofJson? type json = some v) : v.isFinite := by
  by_cases hv : v = .null
  · subst hv
    rfl
  · cases literal_iff.2 ⟨h, hv⟩ with
    | @integral n lower upper => exact (JsonNumber.int n lower upper).isFinite_toBinary64
    | @fractional x finite => exact finite
    | bool | int | string => rfl

end Scalar

namespace Entity
variable {e : Entity} {members : List (String × Json)} {name : String} {value : Json}

theorem normalValue_of_field? {f : Field} (h : e.field? name = some f) :
    e.normalValue name value = f.type.normal value := by
  rw [normalValue, h]

/-- No field is called like the tag, so the tag is written as it is. -/
theorem WellFormed.normalValue_tagKey (h : e.WellFormed) : e.normalValue tagKey value = value := by
  have hfield : e.field? tagKey = none :=
    Option.eq_none_iff_forall_ne_some.2 fun f hf => h.ne_tagKey hf rfl
  rw [normalValue, hfield]

theorem mem_normalMembers_iff : (name, value) ∈ e.normalMembers members ↔
    ∃ raw, (name, raw) ∈ members ∧ raw ≠ .null ∧ value = e.normalValue name raw := by
  simp only [normalMembers, List.mem_map, List.mem_filter, Bool.not_eq_true', ← Bool.not_eq_true,
    Json.isNull_iff]
  constructor
  · rintro ⟨⟨name, raw⟩, ⟨hm, hraw⟩, heq⟩
    cases heq
    exact ⟨raw, hm, hraw, rfl⟩
  · rintro ⟨raw, hm, hraw, rfl⟩
    exact ⟨(name, raw), ⟨hm, hraw⟩, rfl⟩

theorem nodup_normalMembers (h : (members.map Prod.fst).Nodup) :
    ((e.normalMembers members).map Prod.fst).Nodup := by
  rw [normalMembers, List.map_map]
  exact h.sublist (List.filter_sublist.map _)

end Entity

namespace Form
variable {e : Entity} {members : List (String × Json)}

theorem Admits.mem_members_query_iff (h : (ofEntity e).Admits members) (hwf : e.WellFormed)
    (hnd : (members.map Prod.fst).Nodup) {name : String} (hname : name ≠ tagKey) {value : Json} :
    (name, value) ∈ ((ofEntity e).query members).members ↔ (name, value) ∈ e.normalMembers members := by
  obtain ⟨-, hknown⟩ := (admits_ofEntity_iff hwf).1 h
  rw [EntityQuery.mem_members_iff hname, Entity.mem_normalMembers_iff]
  simp only [get?_query_ofEntity_eq_some_iff hwf hnd]
  constructor
  · rintro ⟨v, ⟨hv, raw, f, hm, hf, hread⟩, rfl⟩
    have hraw : raw ≠ .null := fun hnull =>
      hv (Option.some.inj (hread.symm.trans (Scalar.ofJson?_eq_null_iff.2 hnull)))
    refine ⟨raw, hm, hraw, ?_⟩
    rw [Entity.normalValue_of_field? (Entity.field?_of_searchableField? hf)]
    exact Scalar.toJson_of_ofJson? hread
  · rintro ⟨raw, hm, hraw, rfl⟩
    obtain ⟨f, hf, hsome⟩ := hknown _ hm hname
    obtain ⟨v, hread⟩ := Option.isSome_iff_exists.1 hsome
    have hv : v ≠ .null := fun hnull => hraw (Scalar.ofJson?_eq_null_iff.1 (hnull ▸ hread))
    refine ⟨v, ⟨hv, raw, f, hm, hf, hread⟩, ?_⟩
    rw [Entity.normalValue_of_field? (Entity.field?_of_searchableField? hf)]
    exact (Scalar.toJson_of_ofJson? hread).symm

theorem Admits.perm_normalMembers (h : (ofEntity e).Admits members) (hwf : e.WellFormed)
    (hnd : (members.map Prod.fst).Nodup) (hq : (((ofEntity e).query members).members.map Prod.fst).Nodup) :
    ((ofEntity e).query members).members.Perm (e.normalMembers members) := by
  have htag : (tagKey, .string e.name) ∈ members := (tag?_eq_some_iff_mem hnd).1 h.tag
  have hwritten : (tagKey, .string e.name) ∈ ((ofEntity e).query members).members := by
    rw [EntityQuery.members, kind_query]
    exact .head _
  have hnormal : (tagKey, .string e.name) ∈ e.normalMembers members :=
    Entity.mem_normalMembers_iff.2 ⟨_, htag, by simp, hwf.normalValue_tagKey.symm⟩
  have hnd' : ((e.normalMembers members).map Prod.fst).Nodup := Entity.nodup_normalMembers hnd
  refine (List.perm_ext_iff_of_nodup (.of_map _ hq) (.of_map _ hnd')).2 fun m => ?_
  obtain ⟨name, value⟩ := m
  by_cases hname : name = tagKey
  · subst hname
    rw [← lookup_eq_some_iff_mem hq, ← lookup_eq_some_iff_mem hnd',
      (lookup_eq_some_iff_mem hq).2 hwritten, (lookup_eq_some_iff_mem hnd').2 hnormal]
  · exact h.mem_members_query_iff hwf hnd hname

/-- The members of an operator node are its tag and its operands, in some order. -/
theorem perm_of_operand {tag name : String} {value : Json} (hnd : (members.map Prod.fst).Nodup)
    (hname : name ≠ tagKey) (htag : (tagKey, .string tag) ∈ members) (hoperand : (name, value) ∈ members)
    (honly : ∀ m ∈ members, m.1 = tagKey ∨ m.1 = name) :
    [(tagKey, .string tag), (name, value)].Perm members := by
  have hpair : [(tagKey, .string tag), (name, value)].Nodup := by simp [Ne.symm hname]
  refine (List.perm_ext_iff_of_nodup hpair (.of_map _ hnd)).2 fun m => ?_
  rw [List.mem_pair]
  constructor
  · rintro (rfl | rfl)
    · exact htag
    · exact hoperand
  · intro hm
    rcases honly m hm with hn | hn
    · exact .inl (List.inj_on_of_nodup_map hnd hm htag hn)
    · exact .inr (List.inj_on_of_nodup_map hnd hm hoperand hn)

end Form

namespace Payload
variable {s : Schema} {members : List (String × Json)} {tag name : String} {value written : Json}

/-- Writing a node of an operator gives the normal form of the node if writing its operands does. -/
theorem reordered_operator (hnd : (members.map Prod.fst).Nodup) (hoperator : s.entity? tag = none)
    (hname : name ≠ tagKey) (htag : (tagKey, .string tag) ∈ members) (hoperand : (name, value) ∈ members)
    (honly : ∀ m ∈ members, m.1 = tagKey ∨ m.1 = name) (hwritten : written.Reordered (normal s value)) :
    (Json.object [(tagKey, .string tag), (name, written)]).Reordered (normal s (.object members)) := by
  have hnormal : normal s (.object members) = .object (members.map fun m => (m.1, normal s m.2)) := by
    rw [normal, (Form.tag?_eq_some_iff_mem hnd).2 htag, Option.bind_some, hoperator, normalMembers_eq_map]
  have hperm := (Form.perm_of_operand hnd hname htag hoperand honly).map fun m => (m.1, normal s m.2)
  rw [hnormal]
  exact .object (.cons (.refl _) (.cons hwritten .nil)) hperm

theorem reordered_join {form : Form} {items : List Json} (h : form.Admits members)
    (hf : form.fields = [⟨"children", .nodes, true⟩]) (hoperator : s.entity? form.tag = none)
    (hd : (Json.object members).hasDistinctKeys)
    (hitems : Json.ItemsReordered items (normalItems s (Form.children members))) :
    (Json.object [(tagKey, .string form.tag), ("children", .array items)]).Reordered
      (normal s (.object members)) := by
  obtain ⟨htag, hoperands, honly, -⟩ := h.operands hf hd
  obtain ⟨hnd, -⟩ := Json.hasDistinctKeys_object_iff.1 hd
  exact reordered_operator hnd hoperator (by decide) htag hoperands honly (.array hitems)

end Payload

namespace Engine
variable {g : Engine}

theorem entity?_operator {tag : String} (h : tag = "Not" ∨ tag = "Or" ∨ tag = "And") :
    g.schema.entity? tag = none := by
  refine Option.eq_none_iff_forall_ne_some.2 fun e he => ?_
  obtain ⟨hmem, rfl⟩ := Schema.entity?_eq_some_iff.1 he
  obtain ⟨hnot, hor, hand⟩ := kind_ne_operator hmem
  rcases h with h | h | h
  · exact hnot h
  · exact hor h
  · exact hand h

end Engine

namespace Form

theorem isFinite_query {e : Entity} (h : e.WellFormed) (members : List (String × Json)) :
    ((ofEntity e).query members).IsFinite := by
  intro field v hv
  obtain ⟨value, -, hscalar⟩ := scalar?_of_get?_query hv
  rw [scalar?_ofEntity h] at hscalar
  obtain ⟨f, -, hread⟩ := Option.bind_eq_some_iff.1 hscalar
  exact Scalar.isFinite_of_ofJson? hread

end Form

namespace Grammar.Reads
variable {g : Engine}

theorem isFinite {payload : Json} {t : Search} (h : g.grammar.Reads payload t) : t.IsFinite := by
  refine h.forall_queries fun kind fields members hform => ?_
  obtain ⟨e, he, hfe⟩ := Engine.entity_of_mem_forms hform
  rw [hfe]
  exact Form.isFinite_query (Schema.wellFormed_of_entity? he) members

theorem reordered_normal_entity {members : List (String × Json)} {kind : String}
    {fields : List (String × ScalarType)} (hform : .entity kind fields ∈ g.grammar.forms)
    (h : (Form.entity kind fields).Admits members) (hnd : (members.map Prod.fst).Nodup) :
    ((Form.entity kind fields).query members).toPayload.Reordered
      (Payload.normal g.schema (.object members)) := by
  have hfits : ((Form.entity kind fields).query members).Fits g.schema := fits_query hform
  obtain ⟨e, he, hfe⟩ := Engine.entity_of_mem_forms hform
  have htag : Form.tag? members = some kind := h.tag
  rw [EntityQuery.toPayload_eq hfits.get?_tagKey, Payload.normal, htag, Option.bind_some, he]
  rw [hfe] at h hfits ⊢
  exact .of_perm (h.perm_normalMembers (Schema.wellFormed_of_entity? he) hnd hfits.nodup_members)

mutual

theorem reordered_normal {payload : Json} {t : Search} (h : g.grammar.Reads payload t)
    (hd : payload.hasDistinctKeys) : t.toPayload.Reordered (Payload.normal g.schema payload) := by
  cases h with
  | not _ ha hr =>
    obtain ⟨hnd, hm⟩ := Json.hasDistinctKeys_object_iff.1 hd
    obtain ⟨tag, ⟨child, operand⟩, only⟩ := (Form.admits_not_iff hnd).1 ha
    rw [Form.child_eq_of_mem hnd operand] at hr
    exact Payload.reordered_operator hnd (Engine.entity?_operator (by simp)) (by decide) tag operand only
      (reordered_normal hr (hm _ operand))
  | or _ ha hrs =>
    obtain ⟨-, -, -, hitems⟩ := ha.operands rfl hd
    exact Payload.reordered_join ha rfl (Engine.entity?_operator (by simp [Form.tag])) hd
      (reordered_normalItems hrs hitems)
  | and _ ha hrs =>
    obtain ⟨-, -, -, hitems⟩ := ha.operands rfl hd
    exact Payload.reordered_join ha rfl (Engine.entity?_operator (by simp [Form.tag])) hd
      (reordered_normalItems hrs hitems)
  | entity hform ha =>
    obtain ⟨hnd, -⟩ := Json.hasDistinctKeys_object_iff.1 hd
    exact reordered_normal_entity hform ha hnd
termination_by sizeOf t

theorem reordered_normalItems {payloads : List Json} {ts : List Search}
    (h : g.grammar.ReadsAll payloads ts) (hd : ∀ payload ∈ payloads, payload.hasDistinctKeys) :
    Json.ItemsReordered (Search.toPayloads ts) (Payload.normalItems g.schema payloads) := by
  cases h with
  | nil => exact .nil
  | cons hr hrs =>
    obtain ⟨hd, hds⟩ := List.forall_mem_cons.1 hd
    exact .cons (reordered_normal hr hd) (reordered_normalItems hrs hds)
termination_by sizeOf ts

end

end Grammar.Reads

namespace Engine
variable {g : Engine} {payload : Json} {t : Search}

/-- What is written for the search of a payload is the normal form of the payload, but for the order of
members, and it is resolved to the same search again, whatever the limit. -/
theorem toPayload_of_resolve (hd : payload.hasDistinctKeys) (ht : g.resolve payload = .ok t) :
    t.toPayload.Reordered (Payload.normal g.schema payload) ∧ g.resolve t.toPayload = .ok t := by
  obtain ⟨hreads, hlimit⟩ := resolve_eq_ok_iff.1 ht
  have hback : g.grammar.Reads t.toPayload t.finitePart := t.reads_toPayload hreads.fits
  rw [t.finitePart_eq_self hreads.isFinite] at hback
  exact ⟨hreads.reordered_normal hd, resolve_eq_ok_iff.2 ⟨hback, hlimit⟩⟩

/-- In print, and not one of ninety-six pages at a price of 12. -/
def inPrintButNotAtTwelve : Json :=
  .object [
    ("children", .array [
      .object [
        ("child", .object [
          ("price", .number (.ofInt64 12)), ("isbn", .null), ("type", .string "Book"),
          ("pages", .number (.ofInt64 96))]),
        ("type", .string "Not")],
      .object [("in_print", .bool true), ("type", .string "Book")]]),
    ("type", .string "And")]

/-- The price turns into a double, the number of pages stays what it is, and the `null` is gone. -/
theorem toPayload_inPrintButNotAtTwelve :
    inPrintButNotAtTwelve.hasDistinctKeys ∧ ∃ t, (books (some 3)).resolve inPrintButNotAtTwelve = .ok t ∧
      t.toPayload.Reordered (.object [
        ("children", .array [
          .object [
            ("child", .object [
              ("price", .number (JsonNumber.ofInt64 12).toDouble), ("type", .string "Book"),
              ("pages", .number (.ofInt64 96))]),
            ("type", .string "Not")],
          .object [("in_print", .bool true), ("type", .string "Book")]]),
        ("type", .string "And")]) ∧
      (books (some 3)).resolve t.toPayload = .ok t := by
  have hd : inPrintButNotAtTwelve.hasDistinctKeys := by decide
  have ht : (books (some 3)).resolve inPrintButNotAtTwelve = .ok (.and [
      .not (.entity (((EntityQuery.ofKind "Book").set "price" (.float (.ofInt 12))).set "pages" (.int 96))),
      .entity ((EntityQuery.ofKind "Book").set "in_print" (.bool true))]) := by
    decide +kernel
  exact ⟨hd, _, ht, toPayload_of_resolve hd ht⟩

end Engine

end EntitySearch
