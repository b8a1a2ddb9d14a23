import EntitySearch.Schema.Basic
import Mathlib.Data.List.Nodup

/-!
# Lookups by name

A schema is faultless when its kinds differ and each entity is `Entity.WellFormed`. Since names differ,
looking a name up finds exactly the element that has it (`find?_key_eq_some_iff`), and it makes no
difference whether the searchable fields are picked before or after the lookup
(`Entity.WellFormed.searchableField?_eq_some_iff`).
-/

namespace EntitySearch

theorem find?_key_eq_some_iff {α : Type} (key : α → String) {xs : List α} (hnd : (xs.map key).Nodup)
    {k : String} {x : α} : xs.find? (key · = k) = some x ↔ x ∈ xs ∧ key x = k := by
  induction xs with
  | nil => simp
  | cons y ys ih =>
    obtain ⟨hy, hnd⟩ := List.nodup_cons.1 hnd
    rw [List.find?_cons]
    by_cases hk : key y = k
    · have : x ∈ ys → key x ≠ k := fun hx h => hy (hk ▸ h ▸ List.mem_map_of_mem hx)
      simp only [hk, decide_true, Option.some.injEq, List.mem_cons]
      grind
    · simp only [hk, decide_false, ih hnd, List.mem_cons]
      grind

theorem lookup_eq_some_iff_mem {α : Type} {es : List (String × α)} (hnd : (es.map Prod.fst).Nodup)
    {k : String} {a : α} : es.lookup k = some a ↔ (k, a) ∈ es := by
  induction es with
  | nil => simp
  | cons e es ih =>
    obtain ⟨n, v⟩ := e
    obtain ⟨hn, hnd⟩ := List.nodup_cons.1 hnd
    rw [List.lookup_cons]
    by_cases hk : k = n
    · subst hk
      have : (k, a) ∉ es := fun h => hn (List.mem_map.2 ⟨_, h, rfl⟩)
      simp [this, eq_comm]
    · simp [beq_eq_false_iff_ne.2 hk, hk, ih hnd]

theorem lookup_eq_none_of_notMem {α : Type} {es : List (String × α)} {k : String}
    (h : k ∉ es.map Prod.fst) : es.lookup k = none :=
  List.lookup_eq_none_iff.2 fun e he => bne_iff_ne.2 fun hk => h (List.mem_map.2 ⟨e, he, hk.symm⟩)

theorem lookup_map_snd {α β : Type} (f : α → β) (es : List (String × α)) (k : String) :
    (es.map fun e => (e.1, f e.2)).lookup k = (es.lookup k).map f := by
  induction es with
  | nil => rfl
  | cons e es ih =>
    rw [List.map_cons, List.lookup_cons, List.lookup_cons, ih]
    cases k == e.1 <;> rfl

theorem lookup_eq_of_perm {α : Type} {es es' : List (String × α)} (hnd : (es.map Prod.fst).Nodup)
    (h : es.Perm es') (k : String) : es.lookup k = es'.lookup k := by
  have hnd' : (es'.map Prod.fst).Nodup := (h.map Prod.fst).nodup_iff.1 hnd
  refine Option.ext fun a => ?_
  rw [lookup_eq_some_iff_mem hnd, lookup_eq_some_iff_mem hnd', h.mem_iff]

namespace Entity

/-- The rules for a single entity of a schema. -/
structure WellFormed (e : Entity) : Prop where
  named : e.name ≠ ""
  nodup : (e.fields.map Field.name).Nodup
  unreserved : ∀ f ∈ e.fields, f.name ≠ tagKey

theorem fieldFault?_eq_none_iff {entity : String} {before : List String} {fields : List Field} :
    fieldFault? entity before fields = none ↔
      (fields.map Field.name).Nodup ∧ ∀ f ∈ fields, f.name ≠ tagKey ∧ f.name ∉ before := by
  induction fields generalizing before with
  | nil => simp [fieldFault?]
  | cons f rest ih =>
    rw [fieldFault?]
    by_cases ht : f.name = tagKey
    · simp [ht]
    by_cases hb : f.name ∈ before
    · simp [ht, hb]
    simp only [ht, hb, if_false, ih, List.map_cons, List.nodup_cons, List.mem_map, List.mem_cons]
    grind

theorem fault?_eq_none_iff {before : List String} {es : List Entity} :
    fault? before es = none ↔
      (es.map Entity.name).Nodup ∧ ∀ e ∈ es, e.name ∉ before ∧ e.WellFormed := by
  induction es generalizing before with
  | nil => simp [fault?]
  | cons e rest ih =>
    rw [fault?]
    by_cases hn : e.name = ""
    · simpa [hn] using fun _ _ _ (h : e.WellFormed) => absurd hn h.named
    by_cases hb : e.name ∈ before
    · simp [hn, hb]
    have hwf : e.WellFormed ↔ fieldFault? e.name [] e.fields = none := by
      rw [fieldFault?_eq_none_iff]
      exact ⟨fun h => ⟨h.nodup, fun f hf => ⟨h.unreserved f hf, by simp⟩⟩,
        fun h => ⟨hn, h.1, fun f hf => (h.2 f hf).1⟩⟩
    cases hf : fieldFault? e.name [] e.fields with
    | some fault => simp [hn, hb, hwf, hf]
    | none =>
      simp only [hn, hb, if_false, ih, List.map_cons, List.nodup_cons, List.mem_map, List.mem_cons]
      grind

variable {e : Entity} {name : String} {f : Field}

theorem WellFormed.field?_eq_some_iff (h : e.WellFormed) :
    e.field? name = some f ↔ f ∈ e.fields ∧ f.name = name :=
  find?_key_eq_some_iff Field.name h.nodup

theorem WellFormed.searchableField?_eq_some_iff (h : e.WellFormed) :
    e.searchableField? name = some f ↔ f ∈ e.searchableFields ∧ f.name = name := by
  rw [searchableField?, searchableFields, Option.filter_eq_some_iff, h.field?_eq_some_iff, List.mem_filter]
  exact and_right_comm

theorem WellFormed.exists_field_iff (h : e.WellFormed) (P : ScalarType → Prop) :
    (∃ f, e.field? name = some f ∧ P f.type) ↔
      ∃ type searchable, ⟨name, type, searchable⟩ ∈ e.fields ∧ P type := by
  simp only [h.field?_eq_some_iff]
  constructor
  · rintro ⟨⟨n, type, b⟩, ⟨hf, rfl⟩, hp⟩
    exact ⟨type, b, hf, hp⟩
  · rintro ⟨type, b, hf, hp⟩
    exact ⟨_, ⟨hf, rfl⟩, hp⟩

theorem WellFormed.exists_searchable_iff (h : e.WellFormed) (P : ScalarType → Prop) :
    (∃ f, e.searchableField? name = some f ∧ P f.type) ↔ ∃ type, ⟨name, type, true⟩ ∈ e.fields ∧ P type := by
  simp only [h.searchableField?_eq_some_iff, searchableFields, List.mem_filter]
  constructor
  · rintro ⟨⟨n, type, b⟩, ⟨⟨hf, rfl⟩, rfl⟩, hp⟩
    exact ⟨type, hf, hp⟩
  · rintro ⟨type, hf, hp⟩
    exact ⟨_, ⟨⟨hf, rfl⟩, rfl⟩, hp⟩

theorem field?_of_searchableField? (h : e.searchableField? name = some f) : e.field? name = some f :=
  (Option.filter_eq_some_iff.1 h).1

theorem WellFormed.nodup_searchable (h : e.WellFormed) : (e.searchableFields.map Field.name).Nodup :=
  h.nodup.sublist (List.filter_sublist.map _)

theorem WellFormed.ne_tagKey (h : e.WellFormed) (hf : e.field? name = some f) : name ≠ tagKey := by
  obtain ⟨hmem, rfl⟩ := h.field?_eq_some_iff.1 hf
  exact h.unreserved f hmem

end Entity

namespace Schema
variable {s : Schema} {e : Entity} {name : String}

theorem nodup_names (s : Schema) : (s.entities.map Entity.name).Nodup :=
  (Entity.fault?_eq_none_iff.1 s.faultless).1

theorem wellFormed (he : e ∈ s.entities) : e.WellFormed :=
  ((Entity.fault?_eq_none_iff.1 s.faultless).2 e he).2

theorem entity?_eq_some_iff : s.entity? name = some e ↔ e ∈ s.entities ∧ e.name = name :=
  find?_key_eq_some_iff Entity.name s.nodup_names

theorem wellFormed_of_entity? (h : s.entity? name = some e) : e.WellFormed :=
  wellFormed (entity?_eq_some_iff.1 h).1

theorem name_of_entity? (h : s.entity? name = some e) : e.name = name := (entity?_eq_some_iff.1 h).2

theorem entity?_eq_none_iff : s.entity? name = none ↔ ∀ e ∈ s.entities, e.name ≠ name := by
  simp [entity?]

/-- The entities of the kind have a searchable field of the name and type. -/
def Declares (s : Schema) (kind field : String) (type : ScalarType) : Prop :=
  ∃ e ∈ s.entities, e.name = kind ∧ ⟨field, type, true⟩ ∈ e.fields

theorem declares_iff {kind field : String} {type : ScalarType} (he : s.entity? kind = some e) :
    s.Declares kind field type ↔ ⟨field, type, true⟩ ∈ e.fields := by
  obtain ⟨hmem, hname⟩ := entity?_eq_some_iff.1 he
  constructor
  · rintro ⟨e', hmem', hname', hf⟩
    obtain rfl : e = e' := Option.some.inj (he.symm.trans (entity?_eq_some_iff.2 ⟨hmem', hname'⟩))
    exact hf
  · intro hf
    exact ⟨e, hmem, hname, hf⟩

end Schema

end EntitySearch
