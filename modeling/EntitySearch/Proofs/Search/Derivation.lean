import EntitySearch.Proofs.Engine.Resolved
import EntitySearch.Proofs.Search.Operators

/-!
# The grammar of payloads

`Payload.Derivable` is the grammar that a payload has to follow, and `Payload.Describes` says which search a payload
stands for, both said of its members alone, with no form, lookup or order of trials. Without a limit the engine
resolves exactly the payloads of the grammar, to the searches that they describe (`Engine.resolve_iff_derivable`).
-/

namespace EntitySearch

namespace Payload

inductive Derivable (s : Schema) : Json → Prop
  | not {members child} (tag : (tagKey, .string "Not") ∈ members)
      (operand : ("child", .object child) ∈ members)
      (only : ∀ m ∈ members, m.1 = tagKey ∨ m.1 = "child")
      (child : Derivable s (.object child)) : Derivable s (.object members)
  | and {members items} (tag : (tagKey, .string "And") ∈ members)
      (operands : ("children", .array items) ∈ members)
      (only : ∀ m ∈ members, m.1 = tagKey ∨ m.1 = "children")
      (children : ∀ item ∈ items, Derivable s item) : Derivable s (.object members)
  | or {members items} (tag : (tagKey, .string "Or") ∈ members)
      (operands : ("children", .array items) ∈ members)
      (only : ∀ m ∈ members, m.1 = tagKey ∨ m.1 = "children")
      (children : ∀ item ∈ items, Derivable s item) : Derivable s (.object members)
  | entity {members e} (kind : e ∈ s.entities) (tag : (tagKey, .string e.name) ∈ members)
      (only : ∀ name value, (name, value) ∈ members → name ≠ tagKey →
        ∃ type, ⟨name, type, true⟩ ∈ e.fields ∧ (value = .null ∨ ∃ v, Scalar.Literal type value v)) :
      Derivable s (.object members)

mutual

/-- The search has the nodes of the payload, and its queries wish what the members of the entity nodes
say that are not `null`. -/
inductive Describes (s : Schema) : Json → Search → Prop
  | not {members child t} (tag : (tagKey, .string "Not") ∈ members)
      (operand : ("child", child) ∈ members) (child : Describes s child t) :
      Describes s (.object members) (.not t)
  | and {members items ts} (tag : (tagKey, .string "And") ∈ members)
      (operands : ("children", .array items) ∈ members) (children : DescribeAll s items ts) :
      Describes s (.object members) (.and ts)
  | or {members items ts} (tag : (tagKey, .string "Or") ∈ members)
      (operands : ("children", .array items) ∈ members) (children : DescribeAll s items ts) :
      Describes s (.object members) (.or ts)
  | entity {members e q} (kind : e ∈ s.entities) (tag : (tagKey, .string e.name) ∈ members)
      (same : q.kind = e.name)
      (wishes : ∀ name v, q.get? name = some v ↔ ∃ value type, (name, value) ∈ members ∧
        ⟨name, type, true⟩ ∈ e.fields ∧ Scalar.Literal type value v) :
      Describes s (.object members) (.entity q)

inductive DescribeAll (s : Schema) : List Json → List Search → Prop
  | nil : DescribeAll s [] []
  | cons {payload t payloads ts} (head : Describes s payload t) (tail : DescribeAll s payloads ts) :
      DescribeAll s (payload :: payloads) (t :: ts)

end

end Payload

namespace Form
variable {e : Entity} {members : List (String × Json)}

theorem admits_ofEntity_iff_mem (h : e.WellFormed) (hnd : (members.map Prod.fst).Nodup) :
    (ofEntity e).Admits members ↔ (tagKey, .string e.name) ∈ members ∧
      ∀ name value, (name, value) ∈ members → name ≠ tagKey → ∃ type, ⟨name, type, true⟩ ∈ e.fields ∧
        (value = .null ∨ ∃ v, Scalar.Literal type value v) := by
  rw [admits_ofEntity_iff h, tag?_eq_some_iff_mem hnd, Prod.forall]
  refine and_congr_right fun _ => forall₄_congr fun name value _ _ => ?_
  simp only [Scalar.isSome_ofJson?_iff]
  exact h.exists_searchable_iff fun type => value = .null ∨ ∃ v, Scalar.Literal type value v

theorem get?_query_ofEntity_iff_literal (h : e.WellFormed) (hnd : (members.map Prod.fst).Nodup)
    (name : String) (v : Scalar) : ((ofEntity e).query members).get? name = some v ↔
      ∃ value type, (name, value) ∈ members ∧ ⟨name, type, true⟩ ∈ e.fields ∧
        Scalar.Literal type value v := by
  rw [get?_query_ofEntity_eq_some_iff h hnd]
  simp only [Scalar.literal_iff]
  constructor
  · rintro ⟨hv, value, f, hm, hf, hread⟩
    obtain ⟨type, hf, hread⟩ :=
      (h.exists_searchable_iff fun type => Scalar.ofJson? type value = some v).1 ⟨f, hf, hread⟩
    exact ⟨value, type, hm, hf, hread, hv⟩
  · rintro ⟨value, type, hm, hf, hread, hv⟩
    obtain ⟨f, hf, hread⟩ :=
      (h.exists_searchable_iff fun type => Scalar.ofJson? type value = some v).2 ⟨type, hf, hread⟩
    exact ⟨hv, value, f, hm, hf, hread⟩

end Form

namespace Grammar
variable {g : Engine}

theorem exists_readsAll {payloads : List Json} (h : ∀ payload ∈ payloads, ∃ t, g.grammar.Reads payload t) :
    ∃ ts, g.grammar.ReadsAll payloads ts := by
  induction payloads with
  | nil => exact ⟨[], .nil⟩
  | cons payload rest ih =>
    obtain ⟨⟨t, ht⟩, hrest⟩ := List.forall_mem_cons.1 h
    obtain ⟨ts, hts⟩ := ih hrest
    exact ⟨t :: ts, .cons ht hts⟩

theorem exists_readsAll_children {members : List (String × Json)} {items : List Json}
    (hd : (Json.object members).hasDistinctKeys) (operands : ("children", .array items) ∈ members)
    (ih : ∀ item ∈ items, item.hasDistinctKeys → ∃ t, g.grammar.Reads item t) :
    ∃ ts, g.grammar.ReadsAll (Form.children members) ts := by
  obtain ⟨hnd, hm⟩ := Json.hasDistinctKeys_object_iff.1 hd
  have hitems := Json.hasDistinctKeys_array_iff.1 (hm _ operands)
  rw [Form.children_eq_of_mem hnd operands]
  exact exists_readsAll fun item hmem => ih item hmem (hitems item hmem)

/-- Each rule of the grammar makes nodes that one form admits. -/
theorem exists_reads_of_derivable {payload : Json} (h : Payload.Derivable g.schema payload)
    (hd : payload.hasDistinctKeys) : ∃ t, g.grammar.Reads payload t := by
  induction h with
  | not tag operand only _ ih =>
    obtain ⟨hnd, hm⟩ := Json.hasDistinctKeys_object_iff.1 hd
    obtain ⟨t, ht⟩ := ih (hm _ operand)
    have hadmits := (Form.admits_not_iff hnd).2 ⟨tag, ⟨_, operand⟩, only⟩
    rw [← Form.child_eq_of_mem hnd operand] at ht
    exact ⟨_, .not (Engine.mem_forms_iff.2 (by simp)) hadmits ht⟩
  | and tag operands only _ ih =>
    obtain ⟨hnd, -⟩ := Json.hasDistinctKeys_object_iff.1 hd
    obtain ⟨ts, hts⟩ := exists_readsAll_children hd operands ih
    have hadmits := (Form.admits_join_iff .and rfl hnd).2 ⟨tag, ⟨_, operands⟩, only⟩
    exact ⟨_, .and (Engine.mem_forms_iff.2 (by simp)) hadmits hts⟩
  | or tag operands only _ ih =>
    obtain ⟨hnd, -⟩ := Json.hasDistinctKeys_object_iff.1 hd
    obtain ⟨ts, hts⟩ := exists_readsAll_children hd operands ih
    have hadmits := (Form.admits_join_iff .or rfl hnd).2 ⟨tag, ⟨_, operands⟩, only⟩
    exact ⟨_, .or (Engine.mem_forms_iff.2 (by simp)) hadmits hts⟩
  | entity kind tag only =>
    obtain ⟨hnd, -⟩ := Json.hasDistinctKeys_object_iff.1 hd
    have hadmits := (Form.admits_ofEntity_iff_mem (Schema.wellFormed kind) hnd).2 ⟨tag, only⟩
    exact ⟨_, .entity (Engine.mem_forms_iff.2 (.inr (.inr (.inr ⟨_, kind, rfl⟩)))) hadmits⟩

namespace Reads

mutual

theorem derivable {payload : Json} {t : Search} (h : g.grammar.Reads payload t)
    (hd : payload.hasDistinctKeys) :
    Payload.Derivable g.schema payload ∧ Payload.Describes g.schema payload t := by
  cases h with
  | not _ ha hr =>
    obtain ⟨hnd, hm⟩ := Json.hasDistinctKeys_object_iff.1 hd
    obtain ⟨tag, ⟨child, operand⟩, only⟩ := (Form.admits_not_iff hnd).1 ha
    rw [Form.child_eq_of_mem hnd operand] at hr
    obtain ⟨h1, h2⟩ := derivable hr (hm _ operand)
    exact ⟨.not tag operand only h1, .not tag operand h2⟩
  | and _ ha hrs =>
    obtain ⟨tag, operands, only, hitems⟩ := ha.operands rfl hd
    obtain ⟨h1, h2⟩ := derivable_all hrs hitems
    exact ⟨.and tag operands only h1, .and tag operands h2⟩
  | or _ ha hrs =>
    obtain ⟨tag, operands, only, hitems⟩ := ha.operands rfl hd
    obtain ⟨h1, h2⟩ := derivable_all hrs hitems
    exact ⟨.or tag operands only h1, .or tag operands h2⟩
  | entity hform ha =>
    obtain ⟨hnd, -⟩ := Json.hasDistinctKeys_object_iff.1 hd
    obtain ⟨e, he, hfe⟩ := Engine.entity_of_mem_forms hform
    obtain ⟨kind, -⟩ := Schema.entity?_eq_some_iff.1 he
    have hwf := Schema.wellFormed kind
    rw [hfe] at ha ⊢
    obtain ⟨tag, only⟩ := (Form.admits_ofEntity_iff_mem hwf hnd).1 ha
    refine ⟨.entity kind tag only, .entity kind tag ?_ ?_⟩
    · exact Form.kind_query
    · exact Form.get?_query_ofEntity_iff_literal hwf hnd
termination_by sizeOf t

theorem derivable_all {payloads : List Json} {ts : List Search} (h : g.grammar.ReadsAll payloads ts)
    (hd : ∀ payload ∈ payloads, payload.hasDistinctKeys) :
    (∀ payload ∈ payloads, Payload.Derivable g.schema payload) ∧
      Payload.DescribeAll g.schema payloads ts := by
  cases h with
  | nil => exact ⟨by simp, .nil⟩
  | cons hr hrs =>
    obtain ⟨hd, hds⟩ := List.forall_mem_cons.1 hd
    obtain ⟨h1, h2⟩ := derivable hr hd
    obtain ⟨hs1, hs2⟩ := derivable_all hrs hds
    exact ⟨List.forall_mem_cons.2 ⟨h1, hs1⟩, .cons h2 hs2⟩
termination_by sizeOf ts

end

end Reads
end Grammar

namespace Engine
variable {g : Engine} {payload : Json}

/-- Without a limit, what is resolved is what the grammar derives, and it is resolved to the search that
the payload describes. -/
theorem resolve_iff_derivable (hg : g.maxDepth = none) (hd : payload.hasDistinctKeys) :
    ((∃ t, g.resolve payload = .ok t) ↔ Payload.Derivable g.schema payload) ∧
      ∀ t, g.resolve payload = .ok t → Payload.Describes g.schema payload t := by
  have hreads (t : Search) : g.resolve payload = .ok t ↔ g.grammar.Reads payload t := by
    simp [resolve_eq_ok_iff, hg]
  simp only [hreads]
  refine ⟨⟨?_, ?_⟩, fun t h => (h.derivable hd).2⟩
  · rintro ⟨t, h⟩
    exact (h.derivable hd).1
  · intro h
    exact Grammar.exists_reads_of_derivable h hd

/-- Neither at a price of 12, whatever the number of pages, nor without a chance. -/
def notAtTwelve : Json :=
  .object [
    ("children", .array [
      .object [
        ("child", .object [("price", .number (.ofInt64 12)), ("pages", .null), ("type", .string "Book")]),
        ("type", .string "Not")],
      .object [("type", .string "Or"), ("children", .array [])]]),
    ("type", .string "And")]

/-- The price is a literal at the type of a double; a hidden field may not even be `null`. -/
theorem derivable_notAtTwelve :
    (books none).maxDepth = none ∧ notAtTwelve.hasDistinctKeys ∧
      Payload.Derivable (books none).schema notAtTwelve ∧
      Payload.Describes (books none).schema notAtTwelve (.and [
        .not (.entity ((EntityQuery.ofKind "Book").set "price" (.float (.ofInt 12)))), .or []]) ∧
      ¬ Payload.Derivable (books none).schema (.object [("type", .string "Book"), ("secret", .null)]) := by
  have hg : (books none).maxDepth = none := rfl
  have hd : notAtTwelve.hasDistinctKeys := by decide
  have ht : (books none).resolve notAtTwelve = .ok (.and [
      .not (.entity ((EntityQuery.ofKind "Book").set "price" (.float (.ofInt 12)))), .or []]) := by
    decide +kernel
  obtain ⟨hiff, hdescribes⟩ := resolve_iff_derivable hg hd
  refine ⟨hg, hd, hiff.1 ⟨_, ht⟩, hdescribes _ ht, fun h => ?_⟩
  obtain ⟨t, ht⟩ := (resolve_iff_derivable hg (by decide)).1.2 h
  have herror : (books none).resolve (.object [("type", .string "Book"), ("secret", .null)]) =
      .error (.fields .root "Book" [⟨Location.root.member "secret", .unknownField "Book" "secret"⟩]) := by
    decide +kernel
  rw [herror] at ht
  cases ht

end Engine

end EntitySearch
