import EntitySearch.Proofs.Json.DistinctKeys
import EntitySearch.Proofs.Schema.Lookup
import EntitySearch.Proofs.Search.Reads

/-!
# Operator nodes

The form of an operator has one field, which is required and has payloads in it. Where the members of a
node have different names, the form takes the node iff it carries the tag, holds a value of the shape
under the name of the field, and holds nothing else (`Form.admits_iff_of_operand`). What is looked up in
such a node is then what its members are.
-/

namespace EntitySearch

theorem Json.isNull_iff {value : Json} : value.isNull ↔ value = .null := by
  cases value <;> simp [isNull]

namespace Form
variable {form : Form} {members : List (String × Json)} {name : String} {shape : Shape}

theorem tag?_eq_some_iff_mem (hnd : (members.map Prod.fst).Nodup) {tag : String} :
    tag? members = some tag ↔ (tagKey, .string tag) ∈ members := by
  rw [tag?_eq_some_iff, lookup_eq_some_iff_mem hnd]

theorem lacks_iff : lacks members name ↔ ∀ value, members.lookup name = some value → value = .null := by
  unfold lacks
  cases members.lookup name with
  | none => simp
  | some value => simp [Json.isNull_iff]

theorem Admits.exists_operand (hf : form.fields = [⟨name, shape, true⟩]) (hname : name ≠ tagKey)
    (hnd : (members.map Prod.fst).Nodup) (h : form.Admits members) :
    ∃ value, (name, value) ∈ members ∧ shape.admits value := by
  have hlack : ¬ lacks members name := h.complete ⟨name, shape, true⟩ (by simp [hf]) rfl
  obtain ⟨value, hlookup, hne⟩ : ∃ value, members.lookup name = some value ∧ value ≠ .null := by
    simpa [lacks_iff] using hlack
  have hmem : (name, value) ∈ members := (lookup_eq_some_iff_mem hnd).1 hlookup
  obtain ⟨field, hfield, hvalue⟩ := h.known _ hmem hname
  obtain rfl : ⟨name, shape, true⟩ = field := by simpa [field?, hf] using hfield
  rcases hvalue with hnull | hvalue
  · exact absurd (Json.isNull_iff.1 hnull) hne
  · exact ⟨value, hmem, hvalue⟩

theorem admits_iff_of_operand (form : Form) (hf : form.fields = [⟨name, shape, true⟩])
    (hname : name ≠ tagKey) (hshape : shape.admits .null = false) (hnd : (members.map Prod.fst).Nodup) :
    form.Admits members ↔ (tagKey, .string form.tag) ∈ members ∧
      (∃ value, (name, value) ∈ members ∧ shape.admits value) ∧
      ∀ m ∈ members, m.1 = tagKey ∨ m.1 = name := by
  have hfield (n : String) (field : FormField) :
      form.field? n = some field ↔ n = name ∧ field = ⟨name, shape, true⟩ := by
    simp only [field?, hf, List.find?_singleton, Option.ite_none_right_eq_some, Option.some.injEq,
      decide_eq_true_iff]
    constructor
    · rintro ⟨rfl, rfl⟩
      exact ⟨rfl, rfl⟩
    · rintro ⟨rfl, rfl⟩
      exact ⟨rfl, rfl⟩
  constructor
  · intro h
    refine ⟨(tag?_eq_some_iff_mem hnd).1 h.tag, h.exists_operand hf hname hnd, fun m hm => ?_⟩
    by_cases hm1 : m.1 = tagKey
    · exact .inl hm1
    · obtain ⟨field, hm, -⟩ := h.known m hm hm1
      exact .inr ((hfield _ _).1 hm).1
  · rintro ⟨htag, ⟨value, hmem, hvalue⟩, honly⟩
    have hlookup : members.lookup name = some value := (lookup_eq_some_iff_mem hnd).2 hmem
    have hne : value ≠ .null := by
      rintro rfl
      rw [hshape] at hvalue
      cases hvalue
    refine ⟨(tag?_eq_some_iff_mem hnd).2 htag, ?_, ?_⟩
    · -- Any member but the tag has the name of the field, so it is the one of the right shape.
      rintro ⟨n, v⟩ hm hn
      obtain rfl : n = name := (honly _ hm).resolve_left hn
      obtain rfl : value = v :=
        Option.some.inj (hlookup.symm.trans ((lookup_eq_some_iff_mem hnd).2 hm))
      exact ⟨_, (hfield _ _).2 ⟨rfl, rfl⟩, .inr hvalue⟩
    · intro field hmem _ hlack
      obtain rfl : field = ⟨name, shape, true⟩ := by simpa [hf] using hmem
      exact hne (lacks_iff.1 hlack value hlookup)

theorem child_eq_of_mem (hnd : (members.map Prod.fst).Nodup) {payload : Json}
    (h : ("child", payload) ∈ members) : child members = payload := by
  rw [child, (lookup_eq_some_iff_mem hnd).2 h, Option.getD_some]

theorem children_eq_of_mem (hnd : (members.map Prod.fst).Nodup) {items : List Json}
    (h : ("children", .array items) ∈ members) : children members = items := by
  rw [children, (lookup_eq_some_iff_mem hnd).2 h]

theorem exists_child_iff : (∃ value, ("child", value) ∈ members ∧ Shape.node.admits value) ↔
    ∃ child, ("child", .object child) ∈ members := by
  constructor
  · rintro ⟨value, hmem, hvalue⟩
    cases value with
    | object child => exact ⟨child, hmem⟩
    | _ => cases hvalue
  · rintro ⟨child, hmem⟩
    exact ⟨_, hmem, rfl⟩

theorem exists_children_iff : (∃ value, ("children", value) ∈ members ∧ Shape.nodes.admits value) ↔
    ∃ items, ("children", .array items) ∈ members := by
  constructor
  · rintro ⟨value, hmem, hvalue⟩
    cases value with
    | array items => exact ⟨items, hmem⟩
    | _ => cases hvalue
  · rintro ⟨items, hmem⟩
    exact ⟨_, hmem, rfl⟩

theorem admits_not_iff (hnd : (members.map Prod.fst).Nodup) : Form.not.Admits members ↔
    (tagKey, .string "Not") ∈ members ∧ (∃ child, ("child", .object child) ∈ members) ∧
      ∀ m ∈ members, m.1 = tagKey ∨ m.1 = "child" := by
  rw [admits_iff_of_operand .not rfl (by decide) rfl hnd, exists_child_iff]
  rfl

theorem admits_join_iff (form : Form) (hf : form.fields = [⟨"children", .nodes, true⟩])
    (hnd : (members.map Prod.fst).Nodup) : form.Admits members ↔
      (tagKey, .string form.tag) ∈ members ∧ (∃ items, ("children", .array items) ∈ members) ∧
        ∀ m ∈ members, m.1 = tagKey ∨ m.1 = "children" := by
  rw [admits_iff_of_operand form hf (by decide) rfl hnd, exists_children_iff]

theorem Admits.operands (h : form.Admits members) (hf : form.fields = [⟨"children", .nodes, true⟩])
    (hd : (Json.object members).hasDistinctKeys) : (tagKey, .string form.tag) ∈ members ∧
      ("children", .array (children members)) ∈ members ∧
      (∀ m ∈ members, m.1 = tagKey ∨ m.1 = "children") ∧
      ∀ item ∈ children members, item.hasDistinctKeys := by
  obtain ⟨hnd, hm⟩ := Json.hasDistinctKeys_object_iff.1 hd
  obtain ⟨htag, ⟨items, hitems⟩, honly⟩ := (admits_join_iff form hf hnd).1 h
  obtain rfl : children members = items := children_eq_of_mem hnd hitems
  exact ⟨htag, hitems, honly, Json.hasDistinctKeys_array_iff.1 (hm _ hitems)⟩

end Form

end EntitySearch
