import EntitySearch.Json.Parser

/-!
# Objects with distinct names

A list of members may name the same member twice, but no value that is read from a text has such a list
anywhere in it (`Json.hasDistinctKeys_of_parse`). The parts of a value are read under the invariant
`Reader.Gives`: what a reader gives satisfies a property, whatever text it is run on.
-/

namespace EntitySearch

namespace Json
variable {name : String} {value : Json} {items : List Json} {members : List (String × Json)}

mutual

/-- Whether the names in each object of the value differ. -/
def hasDistinctKeys : Json → Bool
  | null | bool _ | number _ | string _ => true
  | array items => itemsHaveDistinctKeys items
  | object members => decide (members.map Prod.fst).Nodup && membersHaveDistinctKeys members

def itemsHaveDistinctKeys : List Json → Bool
  | [] => true
  | item :: rest => item.hasDistinctKeys && itemsHaveDistinctKeys rest

def membersHaveDistinctKeys : List (String × Json) → Bool
  | [] => true
  | (_, value) :: rest => value.hasDistinctKeys && membersHaveDistinctKeys rest

end

theorem hasDistinctKeys_array_iff :
    (array items).hasDistinctKeys ↔ ∀ item ∈ items, item.hasDistinctKeys := by
  rw [hasDistinctKeys]
  induction items with
  | nil => simp [itemsHaveDistinctKeys]
  | cons item rest ih => rw [itemsHaveDistinctKeys, Bool.and_eq_true, ih, List.forall_mem_cons]

theorem hasDistinctKeys_object_iff : (object members).hasDistinctKeys ↔
    (members.map Prod.fst).Nodup ∧ ∀ m ∈ members, m.2.hasDistinctKeys := by
  have hmembers : membersHaveDistinctKeys members ↔ ∀ m ∈ members, m.2.hasDistinctKeys := by
    induction members with
    | nil => simp [membersHaveDistinctKeys]
    | cons m rest ih => rw [membersHaveDistinctKeys, Bool.and_eq_true, ih, List.forall_mem_cons]
  rw [hasDistinctKeys, Bool.and_eq_true, decide_eq_true_iff, hmembers]

theorem mem_put_imp {m : String × Json} (h : m ∈ put name value members) :
    m = (name, value) ∨ m ∈ members := by
  induction members with
  | nil => exact .inl (List.mem_singleton.1 h)
  | cons e rest ih =>
    obtain ⟨n, v⟩ := e
    rw [put] at h
    split at h
    · next hn =>
      rcases List.mem_cons.1 h with rfl | h
      · exact .inl (by rw [hn])
      · exact .inr (.tail _ h)
    · rcases List.mem_cons.1 h with rfl | h
      · exact .inr (.head _)
      · exact (ih h).imp_right (.tail _)

theorem nodup_put (h : (members.map Prod.fst).Nodup) :
    ((put name value members).map Prod.fst).Nodup := by
  induction members with
  | nil => simp [put]
  | cons e rest ih =>
    obtain ⟨n, v⟩ := e
    obtain ⟨hn, h⟩ := List.nodup_cons.1 h
    rw [put]
    split
    · exact List.nodup_cons.2 ⟨hn, h⟩
    · next hne =>
      refine List.nodup_cons.2 ⟨fun hmem => ?_, ih h⟩
      obtain ⟨m, hm, hmn⟩ := List.mem_map.1 hmem
      rcases mem_put_imp hm with rfl | hm
      · exact hne hmn.symm
      · exact hn (List.mem_map.2 ⟨m, hm, hmn⟩)

theorem hasDistinctKeys_put (h : (object members).hasDistinctKeys) (hv : value.hasDistinctKeys) :
    (object (put name value members)).hasDistinctKeys := by
  obtain ⟨hnd, hm⟩ := hasDistinctKeys_object_iff.1 h
  refine hasDistinctKeys_object_iff.2 ⟨nodup_put hnd, fun m hmem => ?_⟩
  rcases mem_put_imp hmem with rfl | hmem
  · exact hv
  · exact hm m hmem

end Json

namespace Reader
variable {α β σ : Type} {x : Reader α} {f : α → Reader β} {P : α → Prop} {Q : β → Prop}

/-- Whatever the reader gives satisfies the property. -/
def Gives (x : Reader α) (P : α → Prop) : Prop := ∀ s a r, x.run s = .ok (a, r) → P a

theorem gives_true (x : Reader α) : x.Gives fun _ => True := fun _ _ _ _ => trivial

theorem gives_pure {a : α} (h : P a) : (Pure.pure a : Reader α).Gives P := by
  intro s b r hr
  cases hr
  exact h

theorem gives_fail (e : ReadError) : (fail e : Reader α).Gives P := nofun

theorem Gives.bind (hx : x.Gives P) (hf : ∀ a, P a → (f a).Gives Q) : (x >>= f).Gives Q := by
  intro s b t h
  obtain ⟨a, r, ha, hb⟩ := run_bind_eq_ok.1 h
  exact hf a (hx s a r ha) r b t hb

theorem gives_bind (hf : ∀ a, (f a).Gives Q) : (x >>= f).Gives Q :=
  (gives_true x).bind fun a _ => hf a

theorem Gives.firstItem? (h : x.Gives P) : (firstItem? x).Gives fun a => ∀ b ∈ a, P b := by
  refine gives_bind fun c => ?_
  split
  · exact gives_fail _
  · exact gives_bind fun _ => gives_pure (by simp)
  · exact h.bind fun a ha => gives_pure (by simpa using ha)

theorem Gives.laterItem? (h : x.Gives P) : (laterItem? x).Gives fun a => ∀ b ∈ a, P b := by
  refine gives_bind fun c => ?_
  split
  · exact gives_pure (by simp)
  · exact h.bind fun a ha => gives_pure (by simpa using ha)

theorem Gives.moreItems (h : x.Gives P) : (moreItems x).Gives fun as => ∀ a ∈ as, P a := by
  intro s as t hgo
  change moreItems.go x s = .ok (as, t) at hgo
  fun_induction moreItems.go x s generalizing as t with
  | case1 => cases hgo
  | case2 => cases hgo; exact List.forall_mem_nil _
  | case3 => cases hgo
  | case4 s a r ha as' t' ht ih =>
    cases hgo
    exact List.forall_mem_cons.2 ⟨h.laterItem? s _ r ha a rfl, ih as' t' ht⟩

theorem Gives.items (h : x.Gives P) : (items x).Gives fun as => ∀ a ∈ as, P a := by
  refine h.firstItem?.bind fun a ha => ?_
  split
  · exact gives_pure (List.forall_mem_nil _)
  · refine h.moreItems.bind fun as has => gives_pure ?_
    exact List.forall_mem_cons.2 ⟨ha _ rfl, has⟩

section
variable {key : Reader String} {member : σ → String → Reader σ} {I : σ → Prop} {state : σ}

theorem gives_moreMembers (hm : ∀ state name, I state → (member state name).Gives I) (hs : I state) :
    (moreMembers key member state).Gives I := by
  intro s out t hgo
  change moreMembers.go key member state s = .ok (out, t) at hgo
  fun_induction moreMembers.go key member state s generalizing out t with
  | case1 => cases hgo
  | case2 => cases hgo; exact hs
  | case3 => cases hgo
  | case4 state s name r hr state' u hu ih => exact ih (hm state name hs r state' u hu) out t hgo

theorem gives_members (hm : ∀ state name, I state → (member state name).Gives I) (hs : I state) :
    (members key member state).Gives I := by
  refine gives_bind fun name => ?_
  split
  · exact gives_pure hs
  · next name => exact (hm state name hs).bind fun state' hs' => gives_moreMembers hm hs'

end

theorem gives_objectMember {value : Reader Json} (h : value.Gives (·.hasDistinctKeys))
    (before : List (String × Json)) (name : String) (hb : (Json.object before).hasDistinctKeys) :
    (objectMember value before name).Gives fun members => (Json.object members).hasDistinctKeys :=
  gives_bind fun _ => h.bind fun _ hv => gives_pure (Json.hasDistinctKeys_put hb hv)

theorem gives_value (levels : Nat) : (value levels).Gives (·.hasDistinctKeys) := by
  unfold value
  refine gives_bind fun c => ?_
  split
  · exact gives_fail _
  · exact gives_bind fun _ => gives_pure rfl
  · exact gives_bind fun _ => gives_pure rfl
  · exact gives_bind fun _ => gives_pure rfl
  · exact gives_bind fun _ => gives_bind fun _ => gives_pure rfl
  · cases levels with
    | zero => exact gives_fail _
    | succ levels =>
      refine gives_bind fun _ => (gives_value levels).items.bind fun items h => gives_pure ?_
      exact Json.hasDistinctKeys_array_iff.2 h
  · cases levels with
    | zero => exact gives_fail _
    | succ levels =>
      have hmember := gives_objectMember (gives_value levels)
      exact gives_bind fun _ => (gives_members hmember rfl).bind fun members h => gives_pure h
  · split
    · exact gives_bind fun _ => gives_pure rfl
    · exact gives_fail _

end Reader

/-- What is read from a text repeats no name within an object. -/
theorem Json.hasDistinctKeys_of_parse {text : String} {json : Json} (h : parse text = .ok json) :
    json.hasDistinctKeys := by
  unfold parse Reader.readAll at h
  split at h
  · cases h
  next a rest hrun =>
  split at h
  · cases h
    exact Reader.gives_value maxNesting _ _ _ hrun
  · cases h

end EntitySearch
