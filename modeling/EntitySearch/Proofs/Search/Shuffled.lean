import EntitySearch.Proofs.Predicate.Shuffled
import EntitySearch.Proofs.Search.Operators
import EntitySearch.Proofs.Search.Tests

/-!
# The order of children

Searches and payloads that are equal but for the order of children, at any depth, as `Predicate.Shuffled`
is for predicates. Each stage keeps the relation: a payload with its children in another order is read as
the search with its children in that order (`Grammar.Reads.exists_shuffled`), and compiled to the predicate
with its operands in that order (`Search.Shuffled.exists_compile`). What a limit looks at and what the
records are chosen by is the same: the height, and the entity queries as a multiset.
-/

namespace EntitySearch

namespace Predicate
variable {ps permuted ps' : List Predicate}

theorem conjunction_of_two_le (h : 2 ≤ ps.length) : conjunction ps = and ps := by
  match ps, h with
  | _ :: _ :: _, _ => rfl

theorem disjunction_of_two_le (h : 2 ≤ ps.length) : disjunction ps = or ps := by
  match ps, h with
  | _ :: _ :: _, _ => rfl

theorem ShuffledAll.length_eq {ps ps' : List Predicate} (h : ShuffledAll ps ps') :
    ps.length = ps'.length := by
  cases h with
  | nil => rfl
  | cons _ tail => exact congrArg (· + 1) tail.length_eq

/-- Whether there are no operands, one or more does not hang on their order. -/
theorem ShuffledAll.exhaust (operands : ShuffledAll ps permuted) (perm : permuted.Perm ps') :
    ps = [] ∧ ps' = [] ∨ (∃ p p', ps = [p] ∧ ps' = [p'] ∧ p.Shuffled p') ∨
      2 ≤ ps.length ∧ 2 ≤ ps'.length := by
  have hlength : ps.length = ps'.length := operands.length_eq.trans perm.length_eq
  cases operands with
  | nil => exact .inl ⟨rfl, perm.nil_eq.symm⟩
  | cons head tail =>
    cases tail with
    | nil => exact .inr (.inl ⟨_, _, rfl, perm.singleton_eq.symm, head⟩)
    | cons => exact .inr (.inr ⟨by simp, by rw [← hlength]; simp⟩)

/-- The operator is left out on both sides or on none. -/
theorem ShuffledAll.conjunction (operands : ShuffledAll ps permuted) (perm : permuted.Perm ps') :
    (conjunction ps).Shuffled (conjunction ps') := by
  rcases operands.exhaust perm with ⟨rfl, rfl⟩ | ⟨p, p', rfl, rfl, h⟩ | ⟨h, h'⟩
  · exact .refl always
  · exact h
  · rw [conjunction_of_two_le h, conjunction_of_two_le h']
    exact .and operands perm

theorem ShuffledAll.disjunction (operands : ShuffledAll ps permuted) (perm : permuted.Perm ps') :
    (disjunction ps).Shuffled (disjunction ps') := by
  rcases operands.exhaust perm with ⟨rfl, rfl⟩ | ⟨p, p', rfl, rfl, h⟩ | ⟨h, h'⟩
  · exact .refl never
  · exact h
  · rw [disjunction_of_two_le h, disjunction_of_two_le h']
    exact .or operands perm

end Predicate

namespace Search
variable {s : Schema} {ts ts' : List Search} {ps : List Predicate}

theorem heightOfList_mono (h : ts ⊆ ts') : heightOfList ts ≤ heightOfList ts' :=
  heightOfList_le_iff.2 fun _ ht => heightOfList_le_iff.1 (Nat.le_refl _) _ (h ht)

theorem heightOfList_eq_of_perm (h : ts.Perm ts') : heightOfList ts = heightOfList ts' :=
  Nat.le_antisymm (heightOfList_mono h.subset) (heightOfList_mono h.symm.subset)

theorem queriesOfList_eq_flatMap (ts : List Search) : queriesOfList ts = ts.flatMap queries := by
  induction ts with
  | nil => rfl
  | cons t ts ih => rw [queriesOfList, ih, List.flatMap_cons]

theorem compileList_eq_ok_iff :
    compileList s ts = .ok ps ↔ List.Forall₂ (fun t p => t.compile s = .ok p) ts ps := by
  induction ts generalizing ps with
  | nil => simp [compileList, eq_comm]
  | cons t ts ih =>
    rw [compileList, List.forall₂_cons_left_iff]
    cases t.compile s with
    | error e => simp
    | ok p => simp [map_eq_ok_iff, ih, @eq_comm _ ps]

theorem exists_compileList_of_perm (h : ts.Perm ts') (hps : compileList s ts = .ok ps) :
    ∃ ps', compileList s ts' = .ok ps' ∧ ps.Perm ps' := by
  obtain ⟨ps', hps', hperm⟩ := List.perm_comp_forall₂ h.symm (compileList_eq_ok_iff.1 hps)
  exact ⟨ps', compileList_eq_ok_iff.2 hps', hperm.symm⟩

mutual

/-- The searches are equal but for the order of children. -/
inductive Shuffled : Search → Search → Prop
  | refl (t : Search) : Shuffled t t
  | not {t t'} (h : Shuffled t t') : Shuffled (.not t) (.not t')
  | and {ts permuted ts'} (children : ShuffledAll ts permuted) (perm : permuted.Perm ts') :
      Shuffled (.and ts) (.and ts')
  | or {ts permuted ts'} (children : ShuffledAll ts permuted) (perm : permuted.Perm ts') :
      Shuffled (.or ts) (.or ts')

inductive ShuffledAll : List Search → List Search → Prop
  | nil : ShuffledAll [] []
  | cons {t t' ts ts'} (head : Shuffled t t') (tail : ShuffledAll ts ts') : ShuffledAll (t :: ts) (t' :: ts')

end

mutual

theorem Shuffled.height_eq {t t' : Search} (h : t.Shuffled t') : t.height = t'.height := by
  cases h with
  | refl => rfl
  | not h => exact congrArg (· + 1) h.height_eq
  | and children perm | or children perm =>
    rw [height, height, children.height_eq, heightOfList_eq_of_perm perm]

theorem ShuffledAll.height_eq {ts ts' : List Search} (h : ShuffledAll ts ts') :
    heightOfList ts = heightOfList ts' := by
  cases h with
  | nil => rfl
  | cons head tail => rw [heightOfList, heightOfList, head.height_eq, tail.height_eq]

end

mutual

theorem Shuffled.queries_perm {t t' : Search} (h : t.Shuffled t') : t.queries.Perm t'.queries := by
  cases h with
  | refl => exact .refl _
  | not h => exact h.queries_perm
  | and children perm | or children perm =>
    refine children.queries_perm.trans ?_
    rw [queriesOfList_eq_flatMap, queries, queriesOfList_eq_flatMap]
    exact perm.flatMap_right queries

theorem ShuffledAll.queries_perm {ts ts' : List Search} (h : ShuffledAll ts ts') :
    (queriesOfList ts).Perm (queriesOfList ts') := by
  cases h with
  | nil => exact .refl _
  | cons head tail => exact head.queries_perm.append tail.queries_perm

end

mutual

theorem Shuffled.exists_compile {t t' : Search} {p : Predicate} (h : t.Shuffled t')
    (hp : t.compile s = .ok p) : ∃ p', t'.compile s = .ok p' ∧ p.Shuffled p' := by
  cases h with
  | refl => exact ⟨p, hp, .refl p⟩
  | not h =>
    obtain ⟨q, hq, rfl⟩ := map_eq_ok_iff.1 hp
    obtain ⟨q', hq', hshuffled⟩ := h.exists_compile hq
    exact ⟨.not q', map_eq_ok_iff.2 ⟨q', hq', rfl⟩, .not hshuffled⟩
  | and children perm =>
    obtain ⟨ps, hps, rfl⟩ := map_eq_ok_iff.1 hp
    obtain ⟨permuted, hpermuted, operands⟩ := children.exists_compileList hps
    obtain ⟨ps', hps', hperm⟩ := exists_compileList_of_perm perm hpermuted
    exact ⟨.conjunction ps', map_eq_ok_iff.2 ⟨ps', hps', rfl⟩, operands.conjunction hperm⟩
  | or children perm =>
    obtain ⟨ps, hps, rfl⟩ := map_eq_ok_iff.1 hp
    obtain ⟨permuted, hpermuted, operands⟩ := children.exists_compileList hps
    obtain ⟨ps', hps', hperm⟩ := exists_compileList_of_perm perm hpermuted
    exact ⟨.disjunction ps', map_eq_ok_iff.2 ⟨ps', hps', rfl⟩, operands.disjunction hperm⟩

theorem ShuffledAll.exists_compileList {ts ts' : List Search} {ps : List Predicate} (h : ShuffledAll ts ts')
    (hps : compileList s ts = .ok ps) :
    ∃ ps', compileList s ts' = .ok ps' ∧ Predicate.ShuffledAll ps ps' := by
  cases h with
  | nil =>
    cases hps
    exact ⟨[], rfl, .nil⟩
  | cons head tail =>
    obtain ⟨p, ps, hp, htail, rfl⟩ := List.forall₂_cons_left_iff.1 (compileList_eq_ok_iff.1 hps)
    obtain ⟨p', hp', hshuffled⟩ := head.exists_compile hp
    obtain ⟨ps', hps', hall⟩ := tail.exists_compileList (compileList_eq_ok_iff.2 htail)
    exact ⟨p' :: ps', compileList_eq_ok_iff.2 (.cons hp' (compileList_eq_ok_iff.1 hps')),
      .cons hshuffled hall⟩

end

end Search

namespace Payload

mutual

/-- The payloads are equal but for the order of children. -/
inductive Shuffled : Json → Json → Prop
  | refl (payload : Json) : Shuffled payload payload
  | child {before after payload payload'} (h : Shuffled payload payload') :
      Shuffled (.object (before ++ ("child", payload) :: after))
        (.object (before ++ ("child", payload') :: after))
  | children {before after items permuted items'} (children : ShuffledAll items permuted)
      (perm : permuted.Perm items') :
      Shuffled (.object (before ++ ("children", .array items) :: after))
        (.object (before ++ ("children", .array items') :: after))

inductive ShuffledAll : List Json → List Json → Prop
  | nil : ShuffledAll [] []
  | cons {payload payload' payloads payloads'} (head : Shuffled payload payload')
      (tail : ShuffledAll payloads payloads') : ShuffledAll (payload :: payloads) (payload' :: payloads')

end

theorem Shuffled.eq_or_isObject {payload payload' : Json} (h : Shuffled payload payload') :
    payload = payload' ∨ payload.isObject ∧ payload'.isObject := by
  cases h with
  | refl => exact .inl rfl
  | child | children => exact .inr ⟨rfl, rfl⟩

theorem Shuffled.isNull_eq {payload payload' : Json} (h : Shuffled payload payload') :
    payload.isNull = payload'.isNull := by
  cases h <;> rfl

theorem Shuffled.admits_eq {payload payload' : Json} (h : Shuffled payload payload') (shape : Shape) :
    shape.admits payload = shape.admits payload' := by
  cases h <;> cases shape <;> rfl

end Payload

namespace Form
variable {form : Form} {before after : List (String × Json)} {name : String} {value value' : Json}

theorem lookup_replace (h : name ≠ tagKey) : (before ++ (name, value) :: after).lookup tagKey =
    (before ++ (name, value') :: after).lookup tagKey := by
  have htag : (tagKey == name) = false := beq_eq_false_iff_ne.2 h.symm
  simp only [List.lookup_append, List.lookup_cons, htag]

theorem lacks_replace (h : value.isNull = value'.isNull) (field : String) :
    lacks (before ++ (name, value) :: after) field = lacks (before ++ (name, value') :: after) field := by
  simp only [lacks, List.lookup_append, List.lookup_cons]
  cases before.lookup field with
  | some v => rfl
  | none => cases field == name with
    | true => exact h
    | false => rfl

theorem Admits.replace (h : form.Admits (before ++ (name, value) :: after)) (hname : name ≠ tagKey)
    (hnull : value.isNull = value'.isNull)
    (hshape : ∀ shape : Shape, shape.admits value = shape.admits value') :
    form.Admits (before ++ (name, value') :: after) where
  tag := by
    rw [tag?, ← lookup_replace hname]
    exact h.tag
  known := by
    simpa only [List.forall_mem_append, List.forall_mem_cons, hnull, hshape] using h.known
  complete field hfield hreq := by
    rw [← lacks_replace hnull]
    exact h.complete field hfield hreq

/-- No value of an entity node has values in it. -/
theorem Admits.of_entity {kind : String} {fields : List (String × ScalarType)}
    {members : List (String × Json)} (h : (entity kind fields).Admits members)
    (hmem : (name, value) ∈ members) (hname : name ≠ tagKey) :
    value.isObject = false ∧ value.isArray = false := by
  obtain ⟨field, hfield, hvalue⟩ := h.known _ hmem hname
  obtain ⟨m, -, rfl⟩ : ∃ m ∈ fields, (⟨m.1, .scalar m.2, false⟩ : FormField) = field :=
    List.mem_map.1 (List.mem_of_find?_eq_some hfield)
  cases value with
  | object members => simp [Json.isNull, Shape.admits, Scalar.ofJson?] at hvalue
  | array items => simp [Json.isNull, Shape.admits, Scalar.ofJson?] at hvalue
  | _ => exact ⟨rfl, rfl⟩

end Form

namespace Grammar
variable {g : Grammar} {payloads payloads' : List Json} {ts : List Search}

theorem readsAll_iff : g.ReadsAll payloads ts ↔ List.Forall₂ g.Reads payloads ts := by
  induction payloads generalizing ts with
  | nil =>
    constructor
    · rintro ⟨⟩
      exact .nil
    · rintro ⟨⟩
      exact .nil
  | cons payload payloads ih =>
    constructor
    · rintro (_ | ⟨head, tail⟩)
      exact .cons head (ih.1 tail)
    · rintro (_ | ⟨head, tail⟩)
      exact .cons head (ih.2 tail)

theorem exists_readsAll_of_perm (h : payloads.Perm payloads') (hr : g.ReadsAll payloads ts) :
    ∃ ts', g.ReadsAll payloads' ts' ∧ ts.Perm ts' := by
  obtain ⟨ts', hr', hperm⟩ := List.perm_comp_forall₂ h.symm (readsAll_iff.1 hr)
  exact ⟨ts', readsAll_iff.2 hr', hperm.symm⟩

mutual

theorem Reads.exists_shuffled {payload payload' : Json} {t : Search} (hr : g.Reads payload t)
    (hd : payload.hasDistinctKeys) (h : Payload.Shuffled payload payload') :
    ∃ t', g.Reads payload' t' ∧ t.Shuffled t' := by
  cases h with
  | refl => exact ⟨t, hr, .refl t⟩
  | @child before after child child' h =>
    obtain ⟨hnd, hvalues⟩ := Json.hasDistinctKeys_object_iff.1 hd
    have hname : "child" ≠ tagKey := by decide
    have hmem : ("child", child) ∈ before ++ ("child", child) :: after := by simp
    have hmem' : ("child", child') ∈ before ++ ("child", child') :: after := by simp
    cases hr with
    | not hform hadmits hchild =>
      rw [Form.child_eq_of_mem hnd hmem] at hchild
      obtain ⟨t', hchild', hshuffled⟩ := hchild.exists_shuffled (hvalues _ hmem) h
      refine ⟨.not t', .not hform (hadmits.replace hname h.isNull_eq h.admits_eq) ?_, .not hshuffled⟩
      rwa [Form.child_eq_of_mem (by simpa using hnd) hmem']
    | or _ hadmits | and _ hadmits =>
      -- These forms know no such field.
      obtain ⟨_, hfield, -⟩ := hadmits.known _ hmem hname
      cases hfield
    | entity hform hadmits =>
      -- An entity may have a field of this name, but the value has no children then.
      obtain ⟨hobject, -⟩ := hadmits.of_entity hmem hname
      rcases h.eq_or_isObject with rfl | ⟨hobject', -⟩
      · exact ⟨_, .entity hform hadmits, .refl _⟩
      · rw [hobject] at hobject'
        cases hobject'
  | @children before after items permuted items' children perm =>
    obtain ⟨hnd, hvalues⟩ := Json.hasDistinctKeys_object_iff.1 hd
    have hname : "children" ≠ tagKey := by decide
    have hmem : ("children", .array items) ∈ before ++ ("children", .array items) :: after := by simp
    have hmem' : ("children", .array items') ∈ before ++ ("children", .array items') :: after := by simp
    have hitems : ∀ item ∈ items, item.hasDistinctKeys := Json.hasDistinctKeys_array_iff.1 (hvalues _ hmem)
    have hshape (shape : Shape) : shape.admits (.array items) = shape.admits (.array items') := by
      cases shape <;> rfl
    cases hr with
    | not _ hadmits =>
      obtain ⟨_, hfield, -⟩ := hadmits.known _ hmem hname
      cases hfield
    | or hform hadmits hchildren =>
      rw [Form.children_eq_of_mem hnd hmem] at hchildren
      obtain ⟨us, hus, hshuffled⟩ := hchildren.exists_shuffled hitems children
      obtain ⟨ts', hchildren', hperm⟩ := exists_readsAll_of_perm perm hus
      refine ⟨.or ts', .or hform (hadmits.replace hname rfl hshape) ?_, .or hshuffled hperm⟩
      rwa [Form.children_eq_of_mem (by simpa using hnd) hmem']
    | and hform hadmits hchildren =>
      rw [Form.children_eq_of_mem hnd hmem] at hchildren
      obtain ⟨us, hus, hshuffled⟩ := hchildren.exists_shuffled hitems children
      obtain ⟨ts', hchildren', hperm⟩ := exists_readsAll_of_perm perm hus
      refine ⟨.and ts', .and hform (hadmits.replace hname rfl hshape) ?_, .and hshuffled hperm⟩
      rwa [Form.children_eq_of_mem (by simpa using hnd) hmem']
    | entity _ hadmits =>
      obtain ⟨-, harray⟩ := hadmits.of_entity hmem hname
      cases harray

theorem ReadsAll.exists_shuffled {payloads payloads' : List Json} {ts : List Search}
    (hr : g.ReadsAll payloads ts) (hd : ∀ payload ∈ payloads, payload.hasDistinctKeys)
    (h : Payload.ShuffledAll payloads payloads') :
    ∃ ts', g.ReadsAll payloads' ts' ∧ Search.ShuffledAll ts ts' := by
  cases h with
  | nil =>
    cases hr
    exact ⟨[], .nil, .nil⟩
  | cons head tail =>
    obtain ⟨hd, hds⟩ := List.forall_mem_cons.1 hd
    cases hr with
    | cons hr hrs =>
      obtain ⟨t', hr', hshuffled⟩ := hr.exists_shuffled hd head
      obtain ⟨ts', hrs', hall⟩ := hrs.exists_shuffled hds tail
      exact ⟨t' :: ts', .cons hr' hrs', .cons hshuffled hall⟩

end

end Grammar

end EntitySearch
