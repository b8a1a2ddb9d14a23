import EntitySearch.Proofs.Scalar
import EntitySearch.Proofs.Schema.Lookup
import EntitySearch.Search.Form

/-!
# The query of a node

`Form.scalar?` is the value that a single member of a node gives a field. The query that a form takes
from a node holds no other values (`Form.scalar?_of_get?_query`), and where the names of the members
differ it holds all of them but `null` (`Form.get?_query_eq_some_iff`), in whatever order they come.
-/

namespace EntitySearch

namespace EntityQuery
variable {q : EntityQuery} {name field : String} {value v : Scalar}

theorem ext_get? {q q' : EntityQuery} (hk : q.kind = q'.kind) (h : ∀ f, q.get? f = q'.get? f) :
    q = q' := by
  have hw : q.wanted = q'.wanted := FieldMap.ext_get? h
  cases q; cases q'; simp_all

theorem get?_eq_some_iff : q.get? field = some v ↔ (field, v) ∈ q.wanted.entries :=
  q.wanted.get?_eq_some_iff

theorem ne_null_of_get? (h : q.get? field = some v) : v ≠ .null :=
  q.wanted_ne_null (field, v) (get?_eq_some_iff.1 h)

theorem get?_set : (q.set name value).get? field =
    if field = name then if value = .null then none else some value else q.get? field := by
  unfold set
  by_cases hv : value = .null
  · simp only [hv, dif_pos, get?, FieldMap.get?_erase, if_true]
  · simp only [hv, dif_neg, get?, FieldMap.get?_insert, if_false, not_false_eq_true]

@[simp] theorem kind_set : (q.set name value).kind = q.kind := by
  unfold set; split <;> rfl

@[simp] theorem kind_ofKind (kind : String) : (ofKind kind).kind = kind := rfl

@[simp] theorem get?_ofKind (kind : String) : (ofKind kind).get? field = none := rfl

end EntityQuery

namespace Form
variable {form : Form} {members : List (String × Json)} {q : EntityQuery} {name : String} {v : Scalar}

/-- The value that a member of a node gives a field. -/
def scalar? (form : Form) (name : String) (value : Json) : Option Scalar :=
  if name = tagKey then none
  else match form.field? name with
    | some ⟨_, .scalar type, _⟩ => Scalar.ofJson? type value
    | _ => none

theorem setMember_eq (q : EntityQuery) (name : String) (value : Json) :
    form.setMember q name value = match form.scalar? name value with
      | some v => q.set name v
      | none => q := by
  unfold setMember scalar?
  by_cases ht : name = tagKey
  · rw [if_pos ht, if_pos ht]
  rw [if_neg ht, if_neg ht]
  cases form.field? name with
  | none => rfl
  | some field =>
    obtain ⟨_, shape, _⟩ := field
    cases shape <;> rfl

theorem get?_setMember_of_ne {field : String} (name : String) (value : Json) (h : field ≠ name) :
    (form.setMember q name value).get? field = q.get? field := by
  rw [setMember_eq]
  split <;> simp [EntityQuery.get?_set, h]

theorem get?_setMember (q : EntityQuery) (name : String) (value : Json) :
    (form.setMember q name value).get? name = match form.scalar? name value with
      | some v => if v = .null then none else some v
      | none => q.get? name := by
  rw [setMember_eq]
  split <;> simp [EntityQuery.get?_set]

theorem kind_setMember (name : String) (value : Json) : (form.setMember q name value).kind = q.kind := by
  rw [setMember_eq]
  split <;> simp

def setMembers (form : Form) (q : EntityQuery) (members : List (String × Json)) : EntityQuery :=
  members.foldl (fun q (name, value) => form.setMember q name value) q

theorem scalar?_of_get?_setMembers (h : (form.setMembers q members).get? name = some v) :
    (∃ value, (name, value) ∈ members ∧ form.scalar? name value = some v) ∨ q.get? name = some v := by
  induction members generalizing q with
  | nil => exact .inr h
  | cons m rest ih =>
    rcases ih h with ⟨value, hm, hv⟩ | hq
    · exact .inl ⟨value, .tail _ hm, hv⟩
    by_cases hn : name = m.1
    · subst hn
      rw [get?_setMember] at hq
      split at hq
      · next v' hv =>
        obtain ⟨-, rfl⟩ : ¬ v' = .null ∧ v' = v := by simpa using hq
        exact .inl ⟨m.2, .head _, hv⟩
      · exact .inr hq
    · exact .inr ((get?_setMember_of_ne m.1 m.2 hn).symm.trans hq)

theorem get?_setMembers_of_notMem (h : name ∉ members.map Prod.fst) :
    (form.setMembers q members).get? name = q.get? name := by
  induction members generalizing q with
  | nil => rfl
  | cons m rest ih =>
    obtain ⟨hn, h⟩ : name ≠ m.1 ∧ name ∉ rest.map Prod.fst := by simpa using h
    exact (ih h).trans (get?_setMember_of_ne m.1 m.2 hn)

theorem kind_setMembers : (form.setMembers q members).kind = q.kind := by
  induction members generalizing q with
  | nil => rfl
  | cons m rest ih => exact ih.trans (kind_setMember m.1 m.2)

theorem get?_setMembers (hnd : (members.map Prod.fst).Nodup) {value : Json}
    (hm : (name, value) ∈ members) (hv : form.scalar? name value = some v) (hne : v ≠ .null) :
    (form.setMembers q members).get? name = some v := by
  induction members generalizing q with
  | nil => cases hm
  | cons m rest ih =>
    obtain ⟨hn, hnd⟩ := List.nodup_cons.1 hnd
    rcases List.mem_cons.1 hm with rfl | hm
    · refine (get?_setMembers_of_notMem hn).trans ?_
      rw [get?_setMember, hv]
      exact if_neg hne
    · exact ih hnd hm

@[simp] theorem kind_query : (form.query members).kind = form.tag := kind_setMembers

theorem scalar?_of_get?_query (h : (form.query members).get? name = some v) :
    ∃ value, (name, value) ∈ members ∧ form.scalar? name value = some v :=
  (scalar?_of_get?_setMembers h).resolve_right (by simp)

theorem get?_query_eq_some_iff (hnd : (members.map Prod.fst).Nodup) :
    (form.query members).get? name = some v ↔
      v ≠ .null ∧ ∃ value, (name, value) ∈ members ∧ form.scalar? name value = some v := by
  constructor
  · intro h
    exact ⟨EntityQuery.ne_null_of_get? h, scalar?_of_get?_query h⟩
  · rintro ⟨hne, value, hm, hv⟩
    exact get?_setMembers hnd hm hv hne

end Form

end EntitySearch
