import EntitySearch.Proofs.Search.Tests

/-!
# Records that fit a schema

A record that is loaded under a schema has a kind of the schema and columns of the types that its fields
declare, none of them `null` (`Record.fits_of_listOfJson`). A test that fits the same schema can then only
fail on it because their kinds differ (`FieldTest.eval_eq`): two values of one type can always be compared.
-/

namespace EntitySearch

namespace Record
variable {s : Schema} {e : Entity} {r r' : Record} {name : String}

/-- The columns are fields of the entity, with values of their types. -/
def Typed (e : Entity) (r : Record) : Prop :=
  ∀ field v, r.columns.get? field = some v → ∃ f, e.field? field = some f ∧ v.type? = some f.type

def Fits (s : Schema) (r : Record) : Prop := ∃ e, s.entity? r.kind = some e ∧ r.Typed e

theorem typed_ofKind (e : Entity) (kind : String) : (ofKind kind).Typed e := nofun

theorem Typed.set {f : Field} {v : Scalar} (h : r.Typed e) (hf : e.field? name = some f)
    (hv : v.type? = some f.type) : (r.set name v).Typed e := by
  intro field w hw
  have hw : (r.columns.insert name v).get? field = some w := hw
  rw [FieldMap.get?_insert] at hw
  split at hw
  · next hn =>
    cases hw
    exact ⟨f, hn ▸ hf, hv⟩
  · exact h field w hw

theorem Typed.setMembers {members : List (String × Json)} (hr : r.Typed e)
    (h : setMembers e r members = .ok r') : r'.Typed e ∧ r'.kind = r.kind := by
  induction members generalizing r with
  | nil =>
    cases h
    exact ⟨hr, rfl⟩
  | cons m rest ih =>
    rw [Record.setMembers] at h
    split at h
    · exact ih hr h
    split at h
    · cases h
    next f hf =>
    split at h
    · cases h
    · exact ih hr h
    · next v hv hread =>
      obtain ⟨hr', hk⟩ := ih (hr.set hf (Scalar.type?_of_ofJson? hread hv)) h
      exact ⟨hr', hk⟩

theorem fits_of_ofJson {json : Json} (h : ofJson s json = .ok r) : r.Fits s := by
  unfold ofJson at h
  split at h
  · next members =>
    split at h
    · next kind _ =>
      split at h
      · cases h
      next e he =>
      obtain ⟨hr, hk⟩ := (typed_ofKind e kind).setMembers h
      exact ⟨e, hk ▸ he, hr⟩
    · cases h
  · cases h

theorem fits_of_ofItems {index : Nat} {items : List Json} {records : List Record}
    (h : ofItems s index items = .ok records) : ∀ r ∈ records, r.Fits s := by
  induction items generalizing index records with
  | nil =>
    cases h
    exact nofun
  | cons item rest ih =>
    rw [ofItems] at h
    split at h
    · cases h
    next r hr =>
    obtain ⟨records, hrest, rfl⟩ := map_eq_ok_iff.1 h
    exact List.forall_mem_cons.2 ⟨fits_of_ofJson hr, ih hrest⟩

theorem fits_of_listOfJson {json : Json} {records : List Record}
    (h : listOfJson s json = .ok records) : ∀ r ∈ records, r.Fits s := by
  unfold listOfJson at h
  split at h
  · exact fits_of_ofItems h
  · cases h

end Record

/-- Equality of values of one type, where it is that of numbers on doubles. -/
def Scalar.same : Scalar → Scalar → Bool
  | float a, float b => a.numEq b
  | a, b => a = b

theorem Scalar.equals?_of_type? {a b : Scalar} {type : ScalarType} (ha : a.type? = some type)
    (hb : b.type? = some type) : a.equals? b = some (a.same b) := by
  cases a <;> cases ha <;> cases b <;> cases hb <;> simp [equals?, same]

namespace FieldTest
variable {s : Schema} {t : FieldTest} {r : Record}

/-- What the test says of a record of its kind. -/
def truth (t : FieldTest) (r : Record) : Truth :=
  match r.columns.get? t.field with
  | none => .unknown
  | some v => .ofBool (v.same t.value)

theorem eval_eq (ht : t.Fits s) (hr : r.Fits s) : t.eval r =
    if t.kind = r.kind then .ok (t.truth r) else .error (.otherKind t.kind r.kind) := by
  unfold eval truth
  by_cases hk : t.kind = r.kind
  · rw [if_pos hk, if_pos hk]
    cases hcol : r.columns.get? t.field with
    | none => simp [Record.get, hcol]
    | some v =>
      obtain ⟨e, he, f, hf, htype⟩ := ht
      obtain ⟨e', he', htyped⟩ := hr
      obtain rfl : e = e' := Option.some.inj (he.symm.trans (hk ▸ he'))
      obtain ⟨f', hf', hvtype⟩ := htyped _ _ hcol
      obtain rfl : f = f' :=
        Option.some.inj ((Entity.field?_of_searchableField? hf).symm.trans hf')
      have hv : v ≠ .null := by
        rintro rfl
        cases hvtype
      have hw : t.value ≠ .null := fun h => by
        rw [h] at htype
        cases htype
      simp [Record.get, hcol, hv, hw, Scalar.equals?_of_type? hvtype htype]
  · rw [if_neg hk, if_neg hk]

end FieldTest

end EntitySearch
