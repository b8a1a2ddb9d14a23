import EntitySearch.Proofs.Engine.Resolved

/-!
# Schemas that grow

A schema grows when entities are added, and searchable fields anywhere among those of an entity
(`Schema.GrowsTo`). A payload that was accepted before stands for the same search afterwards and gets the
same predicate (`Engine.compile_eq_of_growsTo`), since no member of it names a new field: what a form admitted
is admitted by the form that took its place, with the same query (`Form.query_eq_of_growsTo`), and the new fields
give no tests (`EntityQuery.Fits.tests_eq`).
-/

namespace EntitySearch

theorem filterMap_eq_of_sublist {α β : Type} {f : α → Option β} {xs ys : List α} (h : xs.Sublist ys)
    (hnd : ys.Nodup) (hnew : ∀ y ∈ ys, y ∉ xs → f y = none) : ys.filterMap f = xs.filterMap f := by
  induction h with
  | slnil => rfl
  | @cons xs ys y h ih =>
    obtain ⟨hy, hnd⟩ := List.nodup_cons.1 hnd
    have hnone : f y = none := hnew y (.head _) fun hx => hy (h.subset hx)
    rw [List.filterMap_cons_none hnone]
    exact ih hnd fun z hz => hnew z (.tail _ hz)
  | @cons_cons xs ys x h ih =>
    obtain ⟨hx, hnd⟩ := List.nodup_cons.1 hnd
    have ih : ys.filterMap f = xs.filterMap f := by
      refine ih hnd fun z hz hzx => hnew z (.tail _ hz) fun hmem => ?_
      rcases List.mem_cons.1 hmem with rfl | hmem
      · exact hx hz
      · exact hzx hmem
    rw [List.filterMap_cons, List.filterMap_cons, ih]

namespace Entity
variable {e e' : Entity} {name : String} {f : Field}

/-- The second entity has the searchable fields of the first one, of the same types and in the same
order, and perhaps others among them. -/
structure GrowsTo (e e' : Entity) : Prop where
  name : e'.name = e.name
  fields : e.searchableFields.Sublist e'.searchableFields

theorem GrowsTo.searchableField? (h : e.GrowsTo e') (he : e.WellFormed) (he' : e'.WellFormed)
    (hf : e.searchableField? name = some f) : e'.searchableField? name = some f := by
  obtain ⟨hmem, hname⟩ := he.searchableField?_eq_some_iff.1 hf
  exact he'.searchableField?_eq_some_iff.2 ⟨h.fields.subset hmem, hname⟩

/-- A searchable field of the grown entity is new, or is what its name stood for before. -/
theorem GrowsTo.mem_of_searchableField? (h : e.GrowsTo e') (he : e.WellFormed) (he' : e'.WellFormed)
    (hmem : f ∈ e'.searchableFields) {f₀ : Field} (hf : e.searchableField? f.name = some f₀) :
    f ∈ e.searchableFields := by
  have hf' : e'.searchableField? f.name = some f := he'.searchableField?_eq_some_iff.2 ⟨hmem, rfl⟩
  have heq : f₀ = f := Option.some.inj ((h.searchableField? he he' hf).symm.trans hf')
  exact heq ▸ (he.searchableField?_eq_some_iff.1 hf).1

end Entity

namespace Schema
variable {s s' : Schema} {kind : String} {e : Entity}

/-- Each entity of the first schema is still there in the second one, and has perhaps grown. -/
def GrowsTo (s s' : Schema) : Prop := ∀ e ∈ s.entities, ∃ e' ∈ s'.entities, e.GrowsTo e'

theorem GrowsTo.entity? (h : s.GrowsTo s') (he : s.entity? kind = some e) :
    ∃ e', s'.entity? kind = some e' ∧ e.GrowsTo e' := by
  obtain ⟨hmem, hname⟩ := entity?_eq_some_iff.1 he
  obtain ⟨e', hmem', hgrows⟩ := h e hmem
  exact ⟨e', entity?_eq_some_iff.2 ⟨hmem', hgrows.name.trans hname⟩, hgrows⟩

end Schema

namespace Form
variable {form form' : Form} {members : List (String × Json)} {e e' : Entity}

theorem query_congr (htag : form.tag = form'.tag)
    (h : ∀ m ∈ members, form.scalar? m.1 m.2 = form'.scalar? m.1 m.2) :
    form.query members = form'.query members := by
  have hset : ∀ q, form.setMembers q members = form'.setMembers q members := by
    induction members with
    | nil => intro q; rfl
    | cons m rest ih =>
      intro q
      have hm : form.setMember q m.1 m.2 = form'.setMember q m.1 m.2 := by
        rw [setMember_eq, setMember_eq, h m (.head _)]
      show form.setMembers (form.setMember q m.1 m.2) rest = form'.setMembers (form'.setMember q m.1 m.2) rest
      rw [hm]
      exact ih (fun m' hm' => h m' (.tail _ hm')) _
  show form.setMembers (.ofKind form.tag) members = form'.setMembers (.ofKind form'.tag) members
  rw [htag]
  exact hset _

theorem admits_of_growsTo (h : e.GrowsTo e') (he : e.WellFormed) (he' : e'.WellFormed)
    (ha : (ofEntity e).Admits members) : (ofEntity e').Admits members := by
  obtain ⟨htag, hknown⟩ := (admits_ofEntity_iff he).1 ha
  refine (admits_ofEntity_iff he').2 ⟨h.name ▸ htag, fun m hm hne => ?_⟩
  obtain ⟨f, hf, hvalue⟩ := hknown m hm hne
  exact ⟨f, h.searchableField? he he' hf, hvalue⟩

theorem query_eq_of_growsTo (h : e.GrowsTo e') (he : e.WellFormed) (he' : e'.WellFormed)
    (ha : (ofEntity e).Admits members) : (ofEntity e').query members = (ofEntity e).query members := by
  refine query_congr h.name fun m hm => ?_
  by_cases ht : m.1 = tagKey
  · -- The member with the tag gives no value, whatever the fields are.
    rw [scalar?, scalar?, if_pos ht, if_pos ht]
  obtain ⟨f, hf, -⟩ := ((admits_ofEntity_iff he).1 ha).2 m hm ht
  rw [scalar?_ofEntity he', scalar?_ofEntity he, hf, h.searchableField? he he' hf]

end Form

namespace Grammar.Reads
variable {g g' : Engine}

mutual

theorem of_growsTo {payload : Json} {t : Search} (h : g.schema.GrowsTo g'.schema)
    (hr : g.grammar.Reads payload t) : g'.grammar.Reads payload t := by
  cases hr with
  | not _ hadmits hchild =>
    have hform : Form.not ∈ g'.grammar.forms := Engine.mem_forms_iff.2 (.inl rfl)
    exact .not hform hadmits (of_growsTo h hchild)
  | or _ hadmits hchildren =>
    have hform : Form.or ∈ g'.grammar.forms := Engine.mem_forms_iff.2 (.inr (.inl rfl))
    exact .or hform hadmits (all_of_growsTo h hchildren)
  | and _ hadmits hchildren =>
    have hform : Form.and ∈ g'.grammar.forms := Engine.mem_forms_iff.2 (.inr (.inr (.inl rfl)))
    exact .and hform hadmits (all_of_growsTo h hchildren)
  | @entity members kind fields hform hadmits =>
    obtain ⟨e, he, heq⟩ := Engine.entity_of_mem_forms hform
    obtain ⟨e', he', hgrows⟩ := h.entity? he
    have hwf := Schema.wellFormed_of_entity? he
    have hwf' := Schema.wellFormed_of_entity? he'
    rw [heq] at hadmits ⊢
    rw [← Form.query_eq_of_growsTo hgrows hwf hwf' hadmits]
    exact .entity (Engine.ofEntity_mem_forms he') (Form.admits_of_growsTo hgrows hwf hwf' hadmits)
termination_by sizeOf t

theorem all_of_growsTo {payloads : List Json} {ts : List Search} (h : g.schema.GrowsTo g'.schema)
    (hrs : g.grammar.ReadsAll payloads ts) : g'.grammar.ReadsAll payloads ts := by
  cases hrs with
  | nil => exact .nil
  | cons hr hrs => exact .cons (of_growsTo h hr) (all_of_growsTo h hrs)
termination_by sizeOf ts

end

end Grammar.Reads

namespace EntityQuery
variable {s s' : Schema} {q : EntityQuery} {p : Predicate} {e e' : Entity}

theorem Fits.of_growsTo (h : s.GrowsTo s') (hq : q.Fits s) : q.Fits s' := by
  obtain ⟨e, he, hwishes⟩ := hq
  obtain ⟨e', he', hgrows⟩ := h.entity? he
  refine ⟨e', he', fun field v hv => ?_⟩
  obtain ⟨f, hf, htype⟩ := hwishes field v hv
  have hwf := Schema.wellFormed_of_entity? he
  have hwf' := Schema.wellFormed_of_entity? he'
  exact ⟨f, hgrows.searchableField? hwf hwf' hf, htype⟩

/-- New fields give no tests, and do not part the order of the others. -/
theorem Fits.tests_eq (hgrows : e.GrowsTo e') (hq : q.Fits s) (he : s.entity? q.kind = some e)
    (he' : e'.WellFormed) : q.tests e' = q.tests e := by
  have hwf := Schema.wellFormed_of_entity? he
  refine filterMap_eq_of_sublist hgrows.fields (.of_map _ he'.nodup_searchable) fun f hmem hnew => ?_
  rw [Option.map_eq_none_iff]
  by_contra hsome
  obtain ⟨v, hv⟩ := Option.ne_none_iff_exists'.1 hsome
  obtain ⟨e₀, he₀, hwishes⟩ := hq
  obtain rfl : e = e₀ := Option.some.inj (he.symm.trans he₀)
  obtain ⟨f₀, hf₀, -⟩ := hwishes f.name v hv
  exact hnew (hgrows.mem_of_searchableField? hwf he' hmem hf₀)

theorem compile_of_growsTo (h : s.GrowsTo s') (hp : q.compile s = .ok p) : q.compile s' = .ok p := by
  obtain ⟨hq, e, he, rfl⟩ := compile_eq_ok_iff.1 hp
  obtain ⟨e', he', hgrows⟩ := h.entity? he
  refine compile_eq_ok_iff.2 ⟨hq.of_growsTo h, e', he', ?_⟩
  rw [hq.tests_eq hgrows he (Schema.wellFormed_of_entity? he')]

end EntityQuery

namespace Search
variable {s s' : Schema}

mutual

theorem compile_of_growsTo (h : s.GrowsTo s') (t : Search) {p : Predicate} (hp : t.compile s = .ok p) :
    t.compile s' = .ok p := by
  cases t with
  | not child =>
    obtain ⟨q, hq, rfl⟩ := map_eq_ok_iff.1 hp
    exact map_eq_ok_iff.2 ⟨q, compile_of_growsTo h child hq, rfl⟩
  | and ts =>
    obtain ⟨ps, hps, rfl⟩ := map_eq_ok_iff.1 hp
    exact map_eq_ok_iff.2 ⟨ps, compileList_of_growsTo h ts hps, rfl⟩
  | or ts =>
    obtain ⟨ps, hps, rfl⟩ := map_eq_ok_iff.1 hp
    exact map_eq_ok_iff.2 ⟨ps, compileList_of_growsTo h ts hps, rfl⟩
  | entity q => exact EntityQuery.compile_of_growsTo h hp

theorem compileList_of_growsTo (h : s.GrowsTo s') (ts : List Search) {ps : List Predicate}
    (hps : compileList s ts = .ok ps) : compileList s' ts = .ok ps := by
  cases ts with
  | nil => exact hps
  | cons t ts =>
    rw [compileList] at hps ⊢
    cases ht : t.compile s with
    | error e =>
      rw [ht] at hps
      cases hps
    | ok p =>
      rw [ht] at hps
      obtain ⟨later, hlater, rfl⟩ := map_eq_ok_iff.1 hps
      rw [compile_of_growsTo h t ht]
      exact map_eq_ok_iff.2 ⟨later, compileList_of_growsTo h ts hlater, rfl⟩

end

end Search

namespace Engine
variable {g g' : Engine} {payload : Json} {p : Predicate}

/-- What a payload stood for and was compiled to, it stands for and is compiled to after the schema has
grown. -/
theorem compile_eq_of_growsTo (hlimit : g.maxDepth = g'.maxDepth) (h : g.schema.GrowsTo g'.schema)
    (hp : g.compile payload = .ok p) :
    ∃ t, g.resolve payload = .ok t ∧ g'.resolve payload = .ok t ∧ g'.compile payload = .ok p := by
  obtain ⟨t, ht, hc⟩ := exists_search_of_compile hp
  obtain ⟨hreads, hheight⟩ := resolve_eq_ok_iff.1 ht
  have ht' : g'.resolve payload = .ok t := resolve_eq_ok_iff.2 ⟨hreads.of_growsTo h, hlimit ▸ hheight⟩
  have hc' : g'.compileSearch t = .ok p := t.compile_of_growsTo h hc
  exact ⟨t, ht, ht', compile_of_resolve ht' hc'⟩

/-- An engine for authors, and for books with new fields before, among and after those of `books`. What
was hidden has moved and may be searched. -/
def booksAndAuthors (maxDepth : Option Nat) : Engine :=
  ofNodup
    { entities := [
        ⟨"Author", [⟨"isbn", .int64, true⟩]⟩,
        ⟨"Book", [
          ⟨"secret", .varchar, true⟩,
          ⟨"isbn", .varchar, true⟩,
          ⟨"pages", .int64, true⟩,
          ⟨"shelf", .int64, false⟩,
          ⟨"title", .varchar, true⟩,
          ⟨"price", .float64, true⟩,
          ⟨"in_print", .boolean, true⟩,
          ⟨"author", .int64, true⟩]⟩]
      faultless := by decide }
    maxDepth (by decide)

/-- Books in print at a price of 12, but not the first edition. -/
def inPrintAtTwelve : Json :=
  .object [
    ("type", .string "And"),
    ("children", .array [
      .object [("in_print", .bool true), ("price", .number (.ofInt64 12)), ("type", .string "Book")],
      .object [("type", .string "Not"), ("child", .object [
        ("pages", .null), ("type", .string "Book"), ("isbn", .string "1")])]])]

theorem compile_booksAndAuthors :
    (books (some 3)).maxDepth = (booksAndAuthors (some 3)).maxDepth ∧
      (books (some 3)).schema.GrowsTo (booksAndAuthors (some 3)).schema ∧
      ∃ t p, (books (some 3)).resolve inPrintAtTwelve = .ok t ∧
        (booksAndAuthors (some 3)).resolve inPrintAtTwelve = .ok t ∧
        (booksAndAuthors (some 3)).compile inPrintAtTwelve = .ok p ∧
        p.tests.map FieldTest.field = ["price", "in_print", "isbn"] := by
  have hlimit : (books (some 3)).maxDepth = (booksAndAuthors (some 3)).maxDepth := rfl
  have hgrows : (books (some 3)).schema.GrowsTo (booksAndAuthors (some 3)).schema := by
    intro e he
    obtain rfl := List.mem_singleton.1 he
    exact ⟨_, .tail _ (.head _), rfl, by decide⟩
  have hp : (books (some 3)).compile inPrintAtTwelve = .ok (.and [
      .and [.test ⟨"Book", "price", .float (.ofInt 12)⟩, .test ⟨"Book", "in_print", .bool true⟩],
      .not (.test ⟨"Book", "isbn", .string "1"⟩)]) := by
    decide +kernel
  obtain ⟨t, ht, ht', hp'⟩ := compile_eq_of_growsTo hlimit hgrows hp
  exact ⟨hlimit, hgrows, t, _, ht, ht', hp', rfl⟩

end Engine

end EntitySearch
