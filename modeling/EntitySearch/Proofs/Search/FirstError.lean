import EntitySearch.Proofs.Search.Fits

/-!
# Where compilation fails

A search compiles if each of its entity queries is well typed (`EntityQuery.WellTyped`). Otherwise the error
is that of the first query, from left to right, that is not well typed, whatever operators are above it
(`Search.compile_fails_at_first`). Within a query it is about the kind, or about the first field by name with something
wrong (`EntityQuery.Offends`).
-/

namespace EntitySearch

namespace EntityQuery

/-- The kind is one of the schema, and the wishes are for fields that may be searched, at their types. -/
structure WellTyped (s : Schema) (q : EntityQuery) : Prop where
  kind : ∃ e ∈ s.entities, e.name = q.kind
  wishes : ∀ field v, q.get? field = some v → ∃ type, s.Declares q.kind field type ∧ v.type? = some type

/-- What is wrong with the wish for a value in a field of a kind. -/
inductive WishFault (s : Schema) (kind field : String) (v : Scalar) : CompileError → Prop
  | undeclared (h : ∀ type, ¬ s.Declares kind field type) : WishFault s kind field v (.unknownField kind field)
  | otherType {type} (h : s.Declares kind field type) (hv : v.type? ≠ some type) :
      WishFault s kind field v (.wrongType kind field type v.type?)

/-- What is wrong with a query: the kind, or else the first wish by name with something wrong. -/
inductive Offends (s : Schema) (q : EntityQuery) : CompileError → Prop
  | kind (h : ∀ e ∈ s.entities, e.name ≠ q.kind) : Offends s q (.unknownEntity q.kind)
  | wish {field v error} (known : ∃ e ∈ s.entities, e.name = q.kind) (wished : q.get? field = some v)
      (h : WishFault s q.kind field v error)
      (first : ∀ field' v', q.get? field' = some v' → field' < field →
        ∃ type, s.Declares q.kind field' type ∧ v'.type? = some type) : Offends s q error

variable {s : Schema} {q : EntityQuery} {e : Entity} {kind field : String} {v : Scalar} {error : CompileError}

theorem exists_field_iff (he : s.entity? kind = some e) (P : ScalarType → Prop) :
    (∃ f, e.searchableField? field = some f ∧ P f.type) ↔ ∃ type, s.Declares kind field type ∧ P type := by
  rw [(Schema.wellFormed_of_entity? he).exists_searchable_iff]
  simp only [Schema.declares_iff he]

theorem fits_iff_wellTyped : q.Fits s ↔ q.WellTyped s := by
  constructor
  · rintro ⟨e, he, hw⟩
    refine ⟨⟨e, Schema.entity?_eq_some_iff.1 he⟩, fun field v hv => ?_⟩
    exact (exists_field_iff he fun type => v.type? = some type).1 (hw field v hv)
  · rintro ⟨⟨e, hmem⟩, hw⟩
    have he : s.entity? q.kind = some e := Schema.entity?_eq_some_iff.2 hmem
    exact ⟨e, he, fun field v hv => (exists_field_iff he fun type => v.type? = some type).2 (hw field v hv)⟩

theorem wishError?_eq_none_iff_declares (he : s.entity? kind = some e) (hv : v ≠ .null) :
    wishError? e field v = none ↔ ∃ type, s.Declares kind field type ∧ v.type? = some type := by
  rw [wishError?_eq_none_iff hv]
  exact exists_field_iff he fun type => v.type? = some type

theorem wishError?_eq_some_iff (he : s.entity? kind = some e) (hv : v ≠ .null) :
    wishError? e field v = some error ↔ WishFault s kind field v error := by
  have hdeclares (type : ScalarType) :
      s.Declares kind field type ↔ ∃ f, e.searchableField? field = some f ∧ f.type = type := by
    rw [exists_field_iff he (· = type)]
    simp
  obtain rfl : e.name = kind := Schema.name_of_entity? he
  unfold wishError?
  cases hf : e.searchableField? field with
  | none =>
    have hnone (type : ScalarType) : ¬ s.Declares e.name field type := by simp [hdeclares, hf]
    constructor
    · rintro ⟨⟩
      exact .undeclared hnone
    · rintro (_ | ⟨h, -⟩)
      · rfl
      · exact absurd h (hnone _)
  | some f =>
    have hsome (type : ScalarType) : s.Declares e.name field type ↔ f.type = type := by
      simp [hdeclares, hf]
    have hfits : v.fits f.type ↔ v.type? = some f.type := Scalar.fits_iff hv
    simp only [hfits, Option.ite_none_left_eq_some, Option.some.injEq]
    constructor
    · rintro ⟨hother, rfl⟩
      exact .otherType ((hsome _).2 rfl) hother
    · rintro (h | ⟨h, hother⟩)
      · exact absurd ((hsome f.type).2 rfl) (h _)
      · obtain rfl := (hsome _).1 h
        exact ⟨hother, rfl⟩

theorem errorOf?_compile (he : s.entity? q.kind = some e) :
    errorOf? (q.compile s) = q.wanted.entries.findSome? fun (field, v) => wishError? e field v := by
  unfold compile
  simp only [he]
  split <;> next h => rw [h]; rfl

theorem compile_eq_error_iff : q.compile s = .error error ↔ q.Offends s error := by
  cases he : s.entity? q.kind with
  | none =>
    have hunknown := Schema.entity?_eq_none_iff.1 he
    rw [compile, he]
    constructor
    · rintro ⟨⟩
      exact .kind hunknown
    · rintro (_ | ⟨⟨e, hmem, hname⟩, -, -, -⟩)
      · rfl
      · exact absurd hname (hunknown e hmem)
  | some e =>
    have hknown : ∃ e ∈ s.entities, e.name = q.kind := ⟨e, Schema.entity?_eq_some_iff.1 he⟩
    rw [← errorOf?_eq_some_iff, errorOf?_compile he, FieldMap.findSome?_entries_eq_some_iff]
    constructor
    · rintro ⟨field, v, hv, herror, hfirst⟩
      refine .wish hknown hv ((wishError?_eq_some_iff he (ne_null_of_get? hv)).1 herror) ?_
      intro field' v' hv' hlt
      exact (wishError?_eq_none_iff_declares he (ne_null_of_get? hv')).1 (hfirst field' v' hv' hlt)
    · rintro (h | ⟨-, hv, h, hfirst⟩)
      · obtain ⟨e, hmem, hname⟩ := hknown
        exact absurd hname (h e hmem)
      · refine ⟨_, _, hv, (wishError?_eq_some_iff he (ne_null_of_get? hv)).2 h, fun field' v' hv' hlt => ?_⟩
        exact (wishError?_eq_none_iff_declares he (ne_null_of_get? hv')).2 (hfirst field' v' hv' hlt)

end EntityQuery

namespace Search
variable {s : Schema} {t : Search}

/-- Compilation succeeds iff all queries are well typed, and otherwise fails with the error of the first one
that is not. -/
theorem compile_fails_at_first (s : Schema) (t : Search) :
    ((∃ p, t.compile s = .ok p) ↔ ∀ q ∈ t.queries, q.WellTyped s) ∧
      ∀ error, t.compile s = .error error ↔ ∃ before q after, t.queries = before ++ q :: after ∧
        (∀ q' ∈ before, q'.WellTyped s) ∧ (entity q).compile s = .error error ∧ q.Offends s error := by
  have hfits (q : EntityQuery) : errorOf? (q.compile s) = none ↔ q.WellTyped s := by
    rw [errorOf?_eq_none_iff, EntityQuery.exists_compile_iff, EntityQuery.fits_iff_wellTyped]
  constructor
  · rw [exists_compile_iff]
    exact forall₂_congr fun q _ => EntityQuery.fits_iff_wellTyped
  · intro error
    rw [← errorOf?_eq_some_iff, errorOf?_compile, List.findSome?_eq_some_iff]
    refine exists₃_congr fun before q after => and_congr_right fun _ => ?_
    rw [errorOf?_eq_some_iff, compile, and_comm]
    simp only [hfits, ← EntityQuery.compile_eq_error_iff, and_self]

-- The first query that is at fault is the second one, and `id` is before `zip`, though it was wished for later.
example :
    (or [.entity (.ofKind "User"),
      .not (.entity (((EntityQuery.ofKind "User").set "zip" (.int 1)).set "id" (.string "one"))),
      .entity (.ofKind "Robot")]).compile .usersAndCompanies =
        .error (.wrongType "User" "id" .int64 (some .varchar)) := by
  decide +kernel

end Search

end EntitySearch
