import EntitySearch.Proofs.Json.DistinctKeys
import EntitySearch.Proofs.Schema.Lookup

/-!
# The order of members

`Json.Reordered` relates values that are equal but for the order of members, in objects at any depth; the items of
arrays stay where they are. What is looked up under a name is reordered in turn (`Json.MembersReordered.lookup`).
-/

namespace EntitySearch
namespace Json

mutual

/-- The values are equal but for the order of members. -/
inductive Reordered : Json → Json → Prop
  | refl (value : Json) : Reordered value value
  | array {items items'} (h : ItemsReordered items items') : Reordered (.array items) (.array items')
  | object {members permuted members'} (values : MembersReordered members permuted)
      (perm : permuted.Perm members') : Reordered (.object members) (.object members')

inductive ItemsReordered : List Json → List Json → Prop
  | nil : ItemsReordered [] []
  | cons {item item' items items'} (head : Reordered item item') (tail : ItemsReordered items items') :
      ItemsReordered (item :: items) (item' :: items')

/-- The members of two lists have the same names, and their values are equal but for the order of members. -/
inductive MembersReordered : List (String × Json) → List (String × Json) → Prop
  | nil : MembersReordered [] []
  | cons {name value value' members members'} (head : Reordered value value')
      (tail : MembersReordered members members') :
      MembersReordered ((name, value) :: members) ((name, value') :: members')

end

theorem ItemsReordered.refl (items : List Json) : ItemsReordered items items := by
  induction items with
  | nil => exact .nil
  | cons item rest ih => exact .cons (.refl item) ih

theorem MembersReordered.refl (members : List (String × Json)) : MembersReordered members members := by
  induction members with
  | nil => exact .nil
  | cons m rest ih => exact .cons (.refl m.2) ih

theorem Reordered.of_perm {members members' : List (String × Json)} (h : members.Perm members') :
    Reordered (.object members) (.object members') :=
  .object (.refl members) h

theorem Reordered.isNull_eq {value value' : Json} (h : value.Reordered value') :
    value.isNull = value'.isNull := by
  cases h <;> rfl

theorem MembersReordered.names_eq {members members' : List (String × Json)}
    (h : MembersReordered members members') : members.map Prod.fst = members'.map Prod.fst := by
  cases h with
  | nil => rfl
  | cons _ tail => exact congrArg (_ :: ·) tail.names_eq

theorem MembersReordered.lookup {members members' : List (String × Json)}
    (h : MembersReordered members members') (name : String) :
    members.lookup name = none ∧ members'.lookup name = none ∨ ∃ value value',
      members.lookup name = some value ∧ members'.lookup name = some value' ∧ value.Reordered value' := by
  cases h with
  | nil => exact .inl ⟨rfl, rfl⟩
  | @cons n _ _ _ _ head tail =>
    rw [List.lookup_cons, List.lookup_cons]
    cases name == n with
    | true => exact .inr ⟨_, _, rfl, rfl, head⟩
    | false => exact tail.lookup name

mutual

theorem Reordered.hasDistinctKeys_eq {value value' : Json} (h : value.Reordered value') :
    value.hasDistinctKeys = value'.hasDistinctKeys := by
  cases h with
  | refl => rfl
  | array h => rw [hasDistinctKeys, hasDistinctKeys, h.haveDistinctKeys_eq]
  | @object members permuted members' values perm =>
    have hvalues : (object members).hasDistinctKeys = (object permuted).hasDistinctKeys := by
      rw [hasDistinctKeys, hasDistinctKeys, values.names_eq, values.haveDistinctKeys_eq]
    rw [hvalues, Bool.eq_iff_iff, hasDistinctKeys_object_iff, hasDistinctKeys_object_iff,
      (perm.map Prod.fst).nodup_iff]
    simp only [perm.mem_iff]

theorem ItemsReordered.haveDistinctKeys_eq {items items' : List Json} (h : ItemsReordered items items') :
    itemsHaveDistinctKeys items = itemsHaveDistinctKeys items' := by
  cases h with
  | nil => rfl
  | cons head tail =>
    rw [itemsHaveDistinctKeys, itemsHaveDistinctKeys, head.hasDistinctKeys_eq, tail.haveDistinctKeys_eq]

theorem MembersReordered.haveDistinctKeys_eq {members members' : List (String × Json)}
    (h : MembersReordered members members') :
    membersHaveDistinctKeys members = membersHaveDistinctKeys members' := by
  cases h with
  | nil => rfl
  | cons head tail =>
    rw [membersHaveDistinctKeys, membersHaveDistinctKeys, head.hasDistinctKeys_eq, tail.haveDistinctKeys_eq]

end

end Json
end EntitySearch
