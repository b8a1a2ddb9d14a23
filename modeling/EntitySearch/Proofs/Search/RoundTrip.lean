import EntitySearch.Proofs.Engine.Resolved

/-!
# Payloads of searches

A search that fits the schema is read back from its payload, but for the wishes for infinite doubles and
NaN, which are written as `null` (`Search.finitePart`). Conversely a search that is read at all fits the
schema, so reading a payload back decides whether its search compiles (`Engine.resolve_toPayload`).
-/

namespace EntitySearch

namespace FieldMap
variable {α : Type}

def filter (keep : α → Bool) (m : FieldMap α) : FieldMap α :=
  ⟨m.entries.filter (keep ·.2), m.sorted.sublist List.filter_sublist⟩

theorem get?_filter_eq_some_iff {keep : α → Bool} {m : FieldMap α} {f : String} {a : α} :
    (m.filter keep).get? f = some a ↔ m.get? f = some a ∧ keep a := by
  rw [get?_eq_some_iff, get?_eq_some_iff]
  exact List.mem_filter

theorem nodup_names (m : FieldMap α) : (m.entries.map Prod.fst).Nodup :=
  List.pairwise_map.2 (m.sorted.imp fun h => String.ne_of_lt h)

end FieldMap

namespace Json
variable {members : List (String × Json)}

theorem put_of_notMem {name : String} {value : Json} (h : name ∉ members.map Prod.fst) :
    put name value members = members ++ [(name, value)] := by
  induction members with
  | nil => rfl
  | cons m rest ih =>
    obtain ⟨hn, h⟩ : name ≠ m.1 ∧ name ∉ rest.map Prod.fst := by simpa using h
    rw [put, if_neg (Ne.symm hn), ih h]
    rfl

theorem foldl_put_of_notMem {entries : List (String × Scalar)} (hnd : (entries.map Prod.fst).Nodup)
    (hnew : ∀ e ∈ entries, e.1 ∉ members.map Prod.fst) :
    entries.foldl (fun members (field, value) => put field value.toJson members) members =
      members ++ entries.map fun e => (e.1, e.2.toJson) := by
  induction entries generalizing members with
  | nil => simp
  | cons e rest ih =>
    obtain ⟨n, v⟩ := e
    obtain ⟨he, hnd⟩ := List.nodup_cons.1 hnd
    have hn : n ∉ members.map Prod.fst := hnew (n, v) (.head _)
    show rest.foldl _ (put n v.toJson members) = _
    rw [put_of_notMem hn, ih hnd]
    · simp
    · intro e' he' hmem
      rw [List.map_append, List.mem_append] at hmem
      rcases hmem with hmem | hmem
      · exact hnew e' (.tail _ he') hmem
      · exact he (List.mem_singleton.1 hmem ▸ List.mem_map_of_mem he')

end Json

namespace FieldMap
variable {m : FieldMap Scalar}

/-- The members of an object with the kind under the tag, and then the values by name. -/
def tagged (m : FieldMap Scalar) (kind : String) : List (String × Json) :=
  (tagKey, .string kind) :: m.entries.map fun e => (e.1, e.2.toJson)

theorem ne_tagKey_of_mem (h : m.get? tagKey = none) {e : String × Scalar} (he : e ∈ m.entries) :
    e.1 ≠ tagKey := by
  intro hk
  have : m.get? tagKey = some e.2 := m.get?_eq_some_iff.2 (hk ▸ he)
  rw [h] at this
  cases this

theorem foldl_put_eq_tagged (h : m.get? tagKey = none) (kind : String) :
    m.entries.foldl (fun members (field, value) => Json.put field value.toJson members)
      [(tagKey, .string kind)] = m.tagged kind :=
  Json.foldl_put_of_notMem m.nodup_names fun _ he hmem =>
    ne_tagKey_of_mem h he (List.mem_singleton.1 hmem)

theorem nodup_tagged (h : m.get? tagKey = none) (kind : String) : ((m.tagged kind).map Prod.fst).Nodup := by
  have hnames : (m.entries.map fun e => (e.1, e.2.toJson)).map Prod.fst = m.entries.map Prod.fst := by simp
  rw [tagged, List.map_cons, hnames, List.nodup_cons]
  refine ⟨fun hmem => ?_, m.nodup_names⟩
  obtain ⟨e, he, hk⟩ := List.mem_map.1 hmem
  exact ne_tagKey_of_mem h he hk

end FieldMap

namespace EntityQuery
variable {s : Schema} {q : EntityQuery}

/-- The query without its wishes for infinite doubles and NaN. -/
def finitePart (q : EntityQuery) : EntityQuery where
  kind := q.kind
  wanted := q.wanted.filter Scalar.isFinite
  wanted_ne_null e he := q.wanted_ne_null e (List.mem_filter.1 he).1

def IsFinite (q : EntityQuery) : Prop := ∀ field v, q.get? field = some v → v.isFinite

theorem get?_finitePart_eq_some_iff {field : String} {v : Scalar} :
    q.finitePart.get? field = some v ↔ q.get? field = some v ∧ v.isFinite :=
  FieldMap.get?_filter_eq_some_iff

theorem finitePart_eq_self (h : q.IsFinite) : q.finitePart = q := by
  refine ext_get? rfl fun field => Option.ext fun v => ?_
  rw [get?_finitePart_eq_some_iff]
  exact and_iff_left_of_imp (h field v)

def members (q : EntityQuery) : List (String × Json) :=
  (tagKey, .string q.kind) :: q.wanted.entries.map fun e => (e.1, e.2.toJson)

theorem toPayload_eq (h : q.get? tagKey = none) : q.toPayload = .object q.members :=
  congrArg Json.object (q.wanted.foldl_put_eq_tagged h q.kind)

theorem mem_members_iff {name : String} {value : Json} (hne : name ≠ tagKey) :
    (name, value) ∈ q.members ↔ ∃ v, q.get? name = some v ∧ value = v.toJson := by
  simp only [members, List.mem_cons, Prod.mk.injEq, hne, false_and, false_or, List.mem_map,
    get?_eq_some_iff]
  constructor
  · rintro ⟨⟨n, v⟩, he, rfl, rfl⟩
    exact ⟨v, he, rfl⟩
  · rintro ⟨v, he, rfl⟩
    exact ⟨(name, v), he, rfl, rfl⟩

namespace Fits
variable {e : Entity}

theorem get?_tagKey (h : q.Fits s) : q.get? tagKey = none := by
  obtain ⟨e, he, hw⟩ := h
  refine Option.eq_none_iff_forall_ne_some.2 fun v hv => ?_
  obtain ⟨f, hf, -⟩ := hw _ _ hv
  exact (Schema.wellFormed_of_entity? he).ne_tagKey (Entity.field?_of_searchableField? hf) rfl

theorem nodup_members (h : q.Fits s) : (q.members.map Prod.fst).Nodup :=
  q.wanted.nodup_tagged h.get?_tagKey q.kind

theorem admits_members (h : q.Fits s) (he : s.entity? q.kind = some e) :
    (Form.ofEntity e).Admits q.members := by
  obtain ⟨e', he', hw⟩ := h
  obtain rfl : e = e' := Option.some.inj (he.symm.trans he')
  refine (Form.admits_ofEntity_iff (Schema.wellFormed_of_entity? he)).2 ⟨?_, fun m hm hne => ?_⟩
  · simp [Form.tag?, members, Json.string?, Schema.name_of_entity? he]
  · obtain ⟨v, hv, hm⟩ := (mem_members_iff hne).1 hm
    obtain ⟨f, hf, htype⟩ := hw _ _ hv
    refine ⟨f, hf, ?_⟩
    rw [hm, Scalar.ofJson?_toJson htype]
    rfl

theorem query_members (h : q.Fits s) (he : s.entity? q.kind = some e) :
    (Form.ofEntity e).query q.members = q.finitePart := by
  have hnd := h.nodup_members
  obtain ⟨e', he', hw⟩ := h
  obtain rfl : e = e' := Option.some.inj (he.symm.trans he')
  have hwf := Schema.wellFormed_of_entity? he
  refine ext_get? ?_ fun field => Option.ext fun v => ?_
  · rw [Form.kind_query]
    exact Schema.name_of_entity? he
  rw [Form.get?_query_ofEntity_eq_some_iff hwf hnd, get?_finitePart_eq_some_iff]
  constructor
  · rintro ⟨hne, value, f, hm, hf, hread⟩
    have hkey := hwf.ne_tagKey (Entity.field?_of_searchableField? hf)
    obtain ⟨w, hget, rfl⟩ := (mem_members_iff hkey).1 hm
    obtain ⟨f', hf', htype⟩ := hw _ _ hget
    obtain rfl : f = f' := Option.some.inj (hf.symm.trans hf')
    rw [Scalar.ofJson?_toJson htype] at hread
    split at hread
    · next hfin => cases hread; exact ⟨hget, hfin⟩
    · cases hread; exact absurd rfl hne
  · rintro ⟨hget, hfin⟩
    obtain ⟨f, hf, htype⟩ := hw _ _ hget
    have hkey := hwf.ne_tagKey (Entity.field?_of_searchableField? hf)
    refine ⟨ne_null_of_get? hget, v.toJson, f, (mem_members_iff hkey).2 ⟨v, hget, rfl⟩, hf, ?_⟩
    rw [Scalar.ofJson?_toJson htype, if_pos hfin]

end Fits

end EntityQuery

namespace Form

theorem admits_not {child : Json} (h : child.isObject) :
    Form.not.Admits [(tagKey, .string "Not"), ("child", child)] where
  tag := rfl
  known := by simp [field?, fields, Shape.admits, h]
  complete := by cases child <;> simp_all [fields, lacks, tagKey, List.lookup_cons, Json.isObject, Json.isNull]

theorem admits_and {children : List Json} :
    Form.and.Admits [(tagKey, .string "And"), ("children", .array children)] where
  tag := rfl
  known := by simp [field?, fields, Shape.admits, Json.isArray]
  complete := by simp [fields, lacks, tagKey, List.lookup_cons, Json.isNull]

theorem admits_or {children : List Json} :
    Form.or.Admits [(tagKey, .string "Or"), ("children", .array children)] where
  tag := rfl
  known := by simp [field?, fields, Shape.admits, Json.isArray]
  complete := by simp [fields, lacks, tagKey, List.lookup_cons, Json.isNull]

end Form

namespace Search
variable {g : Engine}

mutual

/-- The search without the wishes for infinite doubles and NaN. -/
def finitePart : Search → Search
  | not child => .not child.finitePart
  | and children => .and (finiteParts children)
  | or children => .or (finiteParts children)
  | entity q => .entity q.finitePart

def finiteParts : List Search → List Search
  | [] => []
  | t :: ts => t.finitePart :: finiteParts ts

end

/-- No wish is for an infinite double or NaN. -/
def IsFinite (t : Search) : Prop := ∀ q ∈ t.queries, q.IsFinite

mutual

theorem finitePart_eq_self (t : Search) (h : t.IsFinite) : t.finitePart = t := by
  cases t with
  | not child => exact congrArg Search.not (finitePart_eq_self child fun q hq => h q hq)
  | and ts => exact congrArg Search.and (finiteParts_eq_self ts h)
  | or ts => exact congrArg Search.or (finiteParts_eq_self ts h)
  | entity q => exact congrArg Search.entity (EntityQuery.finitePart_eq_self (h q (.head _)))

theorem finiteParts_eq_self (ts : List Search) (h : ∀ q ∈ queriesOfList ts, q.IsFinite) :
    finiteParts ts = ts := by
  cases ts with
  | nil => rfl
  | cons t ts =>
    obtain ⟨ht, hts⟩ := List.forall_mem_append.1 h
    exact congrArg₂ List.cons (finitePart_eq_self t ht) (finiteParts_eq_self ts hts)

end

theorem isObject_toPayload (t : Search) : t.toPayload.isObject := by
  cases t <;> rfl

mutual

theorem reads_toPayload (t : Search) (h : t.Fits g.schema) :
    g.grammar.Reads t.toPayload t.finitePart := by
  cases t with
  | not child =>
    have hr := reads_toPayload child fun q hq => h q hq
    exact .not (Engine.mem_forms_iff.2 (by simp)) (Form.admits_not child.isObject_toPayload) hr
  | and ts =>
    exact .and (Engine.mem_forms_iff.2 (by simp)) Form.admits_and (readsAll_toPayloads ts h)
  | or ts =>
    exact .or (Engine.mem_forms_iff.2 (by simp)) Form.admits_or (readsAll_toPayloads ts h)
  | entity q =>
    have hq : q.Fits g.schema := h q (.head _)
    obtain ⟨e, he, -⟩ := id hq
    rw [toPayload, q.toPayload_eq hq.get?_tagKey, finitePart, ← hq.query_members he]
    exact .entity (Engine.ofEntity_mem_forms he) (hq.admits_members he)

theorem readsAll_toPayloads (ts : List Search) (h : ∀ q ∈ queriesOfList ts, q.Fits g.schema) :
    g.grammar.ReadsAll (toPayloads ts) (finiteParts ts) := by
  cases ts with
  | nil => exact .nil
  | cons t ts =>
    obtain ⟨ht, hts⟩ := List.forall_mem_append.1 h
    exact .cons (reads_toPayload t ht) (readsAll_toPayloads ts hts)

end

end Search

namespace Engine

theorem resolve_toPayload_of_fits {g : Engine} {t : Search} (hg : g.maxDepth = none)
    (h : t.Fits g.schema) : g.resolve t.toPayload = .ok t.finitePart :=
  resolve_eq_ok_iff.2 ⟨t.reads_toPayload h, by simp [hg]⟩

/-- Without a limit, the payload of a search that compiles is resolved to the search again, less the
wishes that have no JSON form; and unless there are such wishes, only then. -/
theorem resolve_toPayload (g : Engine) (hg : g.maxDepth = none) (t : Search) :
    ((∃ p, g.compileSearch t = .ok p) → g.resolve t.toPayload = .ok t.finitePart) ∧
      (t.IsFinite → ((∃ p, g.compileSearch t = .ok p) ↔ g.resolve t.toPayload = .ok t)) := by
  have hread : (∃ p, g.compileSearch t = .ok p) → g.resolve t.toPayload = .ok t.finitePart :=
    fun h => resolve_toPayload_of_fits hg (exists_compileSearch_iff.1 h)
  refine ⟨hread, fun hfin => ⟨fun h => ?_, fun h => ?_⟩⟩
  · rw [hread h, t.finitePart_eq_self hfin]
  · exact exists_compileSearch_iff.2 (fits_of_resolve h)

/-- A wish for NaN compiles, but it is lost on the way. -/
theorem resolve_toPayload_books :
    (books none).maxDepth = none ∧
      (books none).compileSearch
        (.not (.entity (((EntityQuery.ofKind "Book").set "pages" (.int 96)).set "price" (.float .nan)))) =
          .ok (.not (.and [.test ⟨"Book", "pages", .int 96⟩, .test ⟨"Book", "price", .float .nan⟩])) ∧
      (books none).resolve (Search.not (.entity
        (((EntityQuery.ofKind "Book").set "pages" (.int 96)).set "price" (.float .nan)))).toPayload =
          .ok (.not (.entity ((EntityQuery.ofKind "Book").set "pages" (.int 96)))) := by
  have hp : (books none).compileSearch
      (.not (.entity (((EntityQuery.ofKind "Book").set "pages" (.int 96)).set "price" (.float .nan)))) =
        .ok (.not (.and [.test ⟨"Book", "pages", .int 96⟩, .test ⟨"Book", "price", .float .nan⟩])) := by
    decide
  exact ⟨rfl, hp, ((resolve_toPayload (books none) rfl _).1 ⟨_, hp⟩).trans (by decide)⟩

end Engine

end EntitySearch
