import EntitySearch.Proofs.Search.Shuffled
import EntitySearch.Proofs.Search.SchemaForms
import EntitySearch.Proofs.Json.MemberOrder
import Mathlib.Logic.Relation

/-!
# Members that are null

`Payload.GainsNull` adds a `null` for a searchable field to an entity node anywhere in a payload; the payloads stand for
the same searches then (`Payload.GainsNull.reads_iff`). `Payload.Alike` is the equivalence that such additions and
another order of members make together.
-/

namespace EntitySearch

namespace Payload

/-- The second payload has one member more: an entity node says `null` of a searchable field there. -/
inductive GainsNull (s : Schema) : Json → Json → Prop
  | node {members e name type} (kind : e ∈ s.entities) (tag : Form.tag? members = some e.name)
      (field : ⟨name, type, true⟩ ∈ e.fields) (absent : name ∉ members.map Prod.fst) :
      GainsNull s (.object members) (.object ((name, .null) :: members))
  | child {before after payload payload'} (h : GainsNull s payload payload') :
      GainsNull s (.object (before ++ ("child", payload) :: after))
        (.object (before ++ ("child", payload') :: after))
  | children {before after first last payload payload'} (h : GainsNull s payload payload') :
      GainsNull s (.object (before ++ ("children", .array (first ++ payload :: last)) :: after))
        (.object (before ++ ("children", .array (first ++ payload' :: last)) :: after))

/-- The payloads differ in the order of members and in the members of entity nodes that are `null` only. -/
def Alike (s : Schema) : Json → Json → Prop :=
  Relation.EqvGen fun payload payload' => payload.Reordered payload' ∨ GainsNull s payload payload'

namespace GainsNull
variable {s : Schema} {payload payload' : Json}

theorem exists_members (h : GainsNull s payload payload') :
    (∃ members, payload = .object members) ∧ ∃ members, payload' = .object members := by
  cases h <;> exact ⟨⟨_, rfl⟩, ⟨_, rfl⟩⟩

theorem hasDistinctKeys_iff (h : GainsNull s payload payload') :
    payload.hasDistinctKeys ↔ payload'.hasDistinctKeys := by
  induction h with
  | node _ _ _ habsent =>
    simp only [Json.hasDistinctKeys_object_iff, List.map_cons, List.nodup_cons, List.forall_mem_cons]
    exact ⟨fun ⟨hnd, h⟩ => ⟨⟨habsent, hnd⟩, rfl, h⟩, fun ⟨⟨_, hnd⟩, _, h⟩ => ⟨hnd, h⟩⟩
  | child _ ih =>
    simp only [Json.hasDistinctKeys_object_iff, List.map_append, List.map_cons, List.forall_mem_append,
      List.forall_mem_cons, ih]
  | children _ ih =>
    simp only [Json.hasDistinctKeys_object_iff, List.map_append, List.map_cons, List.forall_mem_append,
      List.forall_mem_cons, Json.hasDistinctKeys_array_iff, ih]

end GainsNull

theorem Alike.hasDistinctKeys_iff {s : Schema} {payload payload' : Json} (h : Alike s payload payload') :
    payload.hasDistinctKeys ↔ payload'.hasDistinctKeys := by
  induction h with
  | rel _ _ h =>
    rcases h with h | h
    · rw [h.hasDistinctKeys_eq]
    · exact h.hasDistinctKeys_iff
  | refl => rfl
  | symm _ _ _ ih => exact ih.symm
  | trans _ _ _ _ _ ih ih' => exact ih.trans ih'

end Payload

namespace Form
variable {form : Form} {members : List (String × Json)} {name : String}

theorem lacks_cons_null (habsent : name ∉ members.map Prod.fst) (field : String) :
    lacks ((name, .null) :: members) field = lacks members field := by
  unfold lacks
  by_cases hname : field = name
  · subst hname
    rw [List.lookup_cons_self, lookup_eq_none_of_notMem habsent]
    rfl
  · rw [List.lookup_cons, beq_eq_false_iff_ne.2 hname]

theorem tag?_cons_of_ne (hname : name ≠ tagKey) (value : Json) :
    tag? ((name, value) :: members) = tag? members := by
  rw [tag?, List.lookup_cons, beq_eq_false_iff_ne.2 hname.symm, tag?]

/-- A `null` for a field that the form knows makes no difference to what it takes. -/
theorem admits_cons_null_iff {field : FormField} (hfield : form.field? name = some field)
    (hname : name ≠ tagKey) (habsent : name ∉ members.map Prod.fst) :
    form.Admits ((name, .null) :: members) ↔ form.Admits members := by
  constructor
  · intro h
    refine ⟨tag?_cons_of_ne hname _ ▸ h.tag, (List.forall_mem_cons.1 h.known).2, fun f hf hreq => ?_⟩
    rw [← lacks_cons_null habsent]
    exact h.complete f hf hreq
  · intro h
    refine ⟨(tag?_cons_of_ne hname _).trans h.tag, List.forall_mem_cons.2 ⟨fun _ => ?_, h.known⟩,
      fun f hf hreq => ?_⟩
    · exact ⟨field, hfield, .inl rfl⟩
    · rw [lacks_cons_null habsent]
      exact h.complete f hf hreq

theorem eq_null_of_scalar? {v : Scalar} (h : form.scalar? name .null = some v) : v = .null := by
  unfold scalar? at h
  split at h
  · cases h
  · split at h
    · exact (Option.some.inj h).symm
    · cases h

/-- A `null` takes back what was said of its field before, which is nothing at the first member. -/
theorem query_cons_null (form : Form) (name : String) (members : List (String × Json)) :
    form.query ((name, .null) :: members) = form.query members := by
  have hfirst : form.setMember (.ofKind form.tag) name .null = .ofKind form.tag := by
    refine EntityQuery.ext_get? (kind_setMember name .null) fun field => ?_
    by_cases hname : field = name
    · subst hname
      rw [get?_setMember]
      split
      · next h => rw [if_pos (eq_null_of_scalar? h), EntityQuery.get?_ofKind]
      · rfl
    · exact get?_setMember_of_ne name .null hname
  exact congrArg (form.setMembers · members) hfirst

end Form

namespace Grammar
variable {g : Engine} {members : List (String × Json)} {e : Entity} {t : Search}

theorem reads_entity_iff (he : e ∈ g.schema.entities) (htag : Form.tag? members = some e.name) :
    g.grammar.Reads (.object members) t ↔
      (Form.ofEntity e).Admits members ∧ t = .entity ((Form.ofEntity e).query members) := by
  have hkind : g.schema.entity? e.name = some e := Schema.entity?_eq_some_iff.2 ⟨he, rfl⟩
  obtain ⟨hnot, hor, hand⟩ := Engine.kind_ne_operator he
  constructor
  · rintro (⟨-, h, -⟩ | ⟨-, h, -⟩ | ⟨-, h, -⟩ | ⟨hform, h⟩)
    · exact absurd (Option.some.inj (htag.symm.trans h.tag)) hnot
    · exact absurd (Option.some.inj (htag.symm.trans h.tag)) hor
    · exact absurd (Option.some.inj (htag.symm.trans h.tag)) hand
    · obtain ⟨e', he', hfe⟩ := Engine.entity_of_mem_forms hform
      obtain rfl : e.name = _ := Option.some.inj (htag.symm.trans h.tag)
      obtain rfl : e = e' := Option.some.inj (hkind.symm.trans he')
      rw [← hfe]
      exact ⟨h, rfl⟩
  · rintro ⟨h, rfl⟩
    exact .entity (Engine.ofEntity_mem_forms hkind) h

namespace Reads
variable {g : Grammar} {before after : List (String × Json)} {t : Search}

theorem replace_child {members members' : List (String × Json)}
    (hnd : ((before ++ ("child", Json.object members) :: after).map Prod.fst).Nodup)
    (h : ∀ t, g.Reads (.object members) t → g.Reads (.object members') t)
    (hr : g.Reads (.object (before ++ ("child", .object members) :: after)) t) :
    g.Reads (.object (before ++ ("child", .object members') :: after)) t := by
  have hname : "child" ≠ tagKey := by decide
  have hmem (value : Json) : ("child", value) ∈ before ++ ("child", value) :: after := by simp
  have hshape (shape : Shape) : shape.admits (.object members) = shape.admits (.object members') := by
    cases shape <;> rfl
  cases hr with
  | not hform hadmits hchild =>
    rw [Form.child_eq_of_mem hnd (hmem _)] at hchild
    refine .not hform (hadmits.replace hname rfl hshape) ?_
    rw [Form.child_eq_of_mem (by simpa using hnd) (hmem _)]
    exact h _ hchild
  | or _ hadmits | and _ hadmits =>
    -- These forms know no such field.
    obtain ⟨_, hfield, -⟩ := hadmits.known _ (hmem _) hname
    cases hfield
  | entity _ hadmits =>
    obtain ⟨hobject, -⟩ := hadmits.of_entity (hmem _) hname
    cases hobject

theorem replace_children {items items' : List Json}
    (hnd : ((before ++ ("children", Json.array items) :: after).map Prod.fst).Nodup)
    (h : ∀ ts, g.ReadsAll items ts → g.ReadsAll items' ts)
    (hr : g.Reads (.object (before ++ ("children", .array items) :: after)) t) :
    g.Reads (.object (before ++ ("children", .array items') :: after)) t := by
  have hname : "children" ≠ tagKey := by decide
  have hmem (value : Json) : ("children", value) ∈ before ++ ("children", value) :: after := by simp
  have hshape (shape : Shape) : shape.admits (.array items) = shape.admits (.array items') := by
    cases shape <;> rfl
  have hnd' : ((before ++ ("children", Json.array items') :: after).map Prod.fst).Nodup := by simpa using hnd
  cases hr with
  | not _ hadmits =>
    obtain ⟨_, hfield, -⟩ := hadmits.known _ (hmem _) hname
    cases hfield
  | or hform hadmits hchildren =>
    rw [Form.children_eq_of_mem hnd (hmem _)] at hchildren
    refine .or hform (hadmits.replace hname rfl hshape) ?_
    rw [Form.children_eq_of_mem hnd' (hmem _)]
    exact h _ hchildren
  | and hform hadmits hchildren =>
    rw [Form.children_eq_of_mem hnd (hmem _)] at hchildren
    refine .and hform (hadmits.replace hname rfl hshape) ?_
    rw [Form.children_eq_of_mem hnd' (hmem _)]
    exact h _ hchildren
  | entity _ hadmits =>
    obtain ⟨-, harray⟩ := hadmits.of_entity (hmem _) hname
    cases harray

end Reads

theorem ReadsAll.replace {g : Grammar} {first last : List Json} {payload payload' : Json}
    (h : ∀ t, g.Reads payload t → g.Reads payload' t) :
    ∀ ts, g.ReadsAll (first ++ payload :: last) ts → g.ReadsAll (first ++ payload' :: last) ts := by
  induction first with
  | nil =>
    rintro _ (_ | ⟨head, tail⟩)
    exact .cons (h _ head) tail
  | cons _ _ ih =>
    rintro _ (_ | ⟨head, tail⟩)
    exact .cons head (ih _ tail)

end Grammar

namespace Payload
variable {g : Engine} {payload payload' : Json}

theorem GainsNull.reads_iff (h : GainsNull g.schema payload payload') (hd : payload.hasDistinctKeys)
    (t : Search) : g.grammar.Reads payload t ↔ g.grammar.Reads payload' t := by
  induction h generalizing t with
  | @node members e name type he htag hfield habsent =>
    have hwf : e.WellFormed := Schema.wellFormed he
    obtain ⟨f, hf, -⟩ := (hwf.exists_searchable_iff fun _ => True).2 ⟨type, hfield, trivial⟩
    have hname : name ≠ tagKey := hwf.ne_tagKey (Entity.field?_of_searchableField? hf)
    have hform : (Form.ofEntity e).field? name = some ⟨f.name, .scalar f.type, false⟩ := by
      rw [Form.field?_ofEntity name hwf, hf]
      rfl
    rw [Grammar.reads_entity_iff he htag,
      Grammar.reads_entity_iff he ((Form.tag?_cons_of_ne hname _).trans htag),
      Form.admits_cons_null_iff hform hname habsent, Form.query_cons_null]
  | @child before after child child' h ih =>
    obtain ⟨hnd, hvalues⟩ := Json.hasDistinctKeys_object_iff.1 hd
    have ih := ih (hvalues ("child", child) (by simp))
    obtain ⟨⟨members, rfl⟩, members', rfl⟩ := h.exists_members
    exact ⟨.replace_child hnd fun t => (ih t).1, .replace_child (by simpa using hnd) fun t => (ih t).2⟩
  | @children before after first last child child' h ih =>
    obtain ⟨hnd, hvalues⟩ := Json.hasDistinctKeys_object_iff.1 hd
    have hmem : ("children", Json.array (first ++ child :: last)) ∈
        before ++ ("children", .array (first ++ child :: last)) :: after := by simp
    have ih := ih (Json.hasDistinctKeys_array_iff.1 (hvalues _ hmem) child (by simp))
    exact ⟨.replace_children hnd (.replace fun t => (ih t).1),
      .replace_children (by simpa using hnd) (.replace fun t => (ih t).2)⟩

end Payload

end EntitySearch
