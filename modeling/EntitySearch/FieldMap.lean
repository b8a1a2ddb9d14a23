/-!
# Maps by field name

A `FieldMap α` holds at most one value per name, in the order of the names by code points. The order
is part of the type, so that two maps with the same values are equal (`FieldMap.ext_get?`).
-/

namespace EntitySearch

structure FieldMap (α : Type) where
  entries : List (String × α)
  sorted : entries.Pairwise (·.1 < ·.1) := by simp
deriving DecidableEq

namespace FieldMap
variable {α : Type}

/-- Puts an entry in its place among entries in order, instead of one of the same name. -/
def insertEntry (name : String) (value : α) : List (String × α) → List (String × α)
  | [] => [(name, value)]
  | (n, v) :: rest =>
    if name < n then (name, value) :: (n, v) :: rest
    else if name = n then (name, value) :: rest
    else (n, v) :: insertEntry name value rest

theorem mem_insertEntry {name : String} {value : α} {e : String × α} {es : List (String × α)}
    (h : e ∈ insertEntry name value es) : e = (name, value) ∨ e ∈ es := by
  fun_induction insertEntry name value es <;> grind

theorem lt_of_not_lt {a b : String} (h : ¬ a < b) (hne : a ≠ b) : b < a :=
  Decidable.byContradiction fun h' => hne (String.le_antisymm (String.not_lt.1 h') (String.not_lt.1 h))

theorem sorted_insertEntry (name : String) (value : α) {es : List (String × α)}
    (h : es.Pairwise (·.1 < ·.1)) : (insertEntry name value es).Pairwise (·.1 < ·.1) := by
  fun_induction insertEntry name value es with
  | case1 => simp
  | case2 n v rest hlt =>
    refine .cons (fun e he => ?_) h
    rcases List.mem_cons.1 he with rfl | he
    · exact hlt
    · exact String.lt_trans hlt ((List.pairwise_cons.1 h).1 e he)
  | case3 v rest _ => exact List.pairwise_cons.2 (List.pairwise_cons.1 h)
  | case4 n v rest hlt hne ih =>
    refine .cons (fun e he => ?_) (ih (List.pairwise_cons.1 h).2)
    rcases mem_insertEntry he with rfl | he
    · exact lt_of_not_lt hlt hne
    · exact (List.pairwise_cons.1 h).1 e he

def empty : FieldMap α where
  entries := []

instance : EmptyCollection (FieldMap α) := ⟨empty⟩

def isEmpty (m : FieldMap α) : Bool := m.entries.isEmpty

def get? (m : FieldMap α) (name : String) : Option α := m.entries.lookup name

def insert (m : FieldMap α) (name : String) (value : α) : FieldMap α :=
  ⟨insertEntry name value m.entries, sorted_insertEntry name value m.sorted⟩

def erase (m : FieldMap α) (name : String) : FieldMap α :=
  ⟨m.entries.filter (·.1 ≠ name), m.sorted.sublist List.filter_sublist⟩

theorem lookup_insertEntry (name f : String) (value : α) (es : List (String × α)) :
    (insertEntry name value es).lookup f = if f = name then some value else es.lookup f := by
  fun_induction insertEntry name value es <;> grind

@[simp] theorem get?_empty (f : String) : (∅ : FieldMap α).get? f = none := rfl

theorem get?_insert (m : FieldMap α) (name f : String) (value : α) :
    (m.insert name value).get? f = if f = name then some value else m.get? f :=
  lookup_insertEntry ..

theorem lookup_filter_ne (name f : String) (es : List (String × α)) :
    (es.filter (·.1 ≠ name)).lookup f = if f = name then none else es.lookup f := by
  induction es with
  | nil => simp
  | cons e es ih => grind

theorem get?_erase (m : FieldMap α) (name f : String) :
    (m.erase name).get? f = if f = name then none else m.get? f :=
  lookup_filter_ne ..

theorem lookup_eq_some_iff {es : List (String × α)} (h : es.Pairwise (·.1 < ·.1)) {f : String}
    {a : α} : es.lookup f = some a ↔ (f, a) ∈ es := by
  induction es with
  | nil => simp
  | cons e es ih =>
    obtain ⟨n, v⟩ := e
    have hn := (List.pairwise_cons.1 h).1
    have ih := ih (List.pairwise_cons.1 h).2
    rw [List.lookup_cons]
    by_cases hf : f = n
    · subst hf
      have : (f, a) ∉ es := fun ha => String.lt_irrefl _ (hn (f, a) ha)
      simp [this, eq_comm]
    · simp [beq_eq_false_iff_ne.2 hf, hf, ih]

theorem get?_eq_some_iff (m : FieldMap α) {f : String} {a : α} :
    m.get? f = some a ↔ (f, a) ∈ m.entries :=
  lookup_eq_some_iff m.sorted

theorem findSome?_entries_eq_some_iff {β : Type} (m : FieldMap α) {f : String → α → Option β} {b : β} :
    (m.entries.findSome? fun (name, a) => f name a) = some b ↔
      ∃ name a, m.get? name = some a ∧ f name a = some b ∧
        ∀ name' a', m.get? name' = some a' → name' < name → f name' a' = none := by
  rw [List.findSome?_eq_some_iff]
  constructor
  · rintro ⟨before, ⟨name, a⟩, after, hsplit, hfound, hbefore⟩
    have hsorted := hsplit ▸ m.sorted
    have hafter := (List.pairwise_cons.1 (List.pairwise_append.1 hsorted).2.1).1
    refine ⟨name, a, m.get?_eq_some_iff.2 (by simp [hsplit]), hfound, fun name' a' hget hlt => ?_⟩
    have hmem : (name', a') ∈ before ++ (name, a) :: after := hsplit ▸ m.get?_eq_some_iff.1 hget
    rcases List.mem_append.1 hmem with hmem | hmem
    · exact hbefore _ hmem
    rcases List.mem_cons.1 hmem with heq | hmem
    · cases heq
      exact absurd hlt (String.lt_irrefl name)
    · exact absurd hlt (String.lt_asymm (hafter _ hmem))
  · rintro ⟨name, a, hget, hfound, hfirst⟩
    obtain ⟨before, after, hsplit⟩ := List.append_of_mem (m.get?_eq_some_iff.1 hget)
    refine ⟨before, (name, a), after, hsplit, hfound, fun ⟨name', a'⟩ hmem => ?_⟩
    have hsorted := hsplit ▸ m.sorted
    have hlt : name' < name := (List.pairwise_append.1 hsorted).2.2 (name', a') hmem (name, a) (.head _)
    exact hfirst name' a' (m.get?_eq_some_iff.2 (by simp [hsplit, hmem])) hlt

theorem entries_eq_of_mem_iff {as bs : List (String × α)} (ha : as.Pairwise (·.1 < ·.1))
    (hb : bs.Pairwise (·.1 < ·.1)) (h : ∀ e, e ∈ as ↔ e ∈ bs) : as = bs := by
  induction as generalizing bs with
  | nil => cases bs with
    | nil => rfl
    | cons b bs => exact absurd ((h b).2 (.head _)) (by simp)
  | cons a as ih =>
    cases bs with
    | nil => exact absurd ((h a).1 (.head _)) (by simp)
    | cons b bs =>
      have ha' := List.pairwise_cons.1 ha
      have hb' := List.pairwise_cons.1 hb
      have hab : a = b := by
        rcases List.mem_cons.1 ((h a).1 (.head _)) with hab | hab
        · exact hab
        · rcases List.mem_cons.1 ((h b).2 (.head _)) with hba | hba
          · exact hba.symm
          · exact absurd (hb'.1 a hab) (String.lt_asymm (ha'.1 b hba))
      subst hab
      rw [ih ha'.2 hb'.2 fun e => ?_]
      have hne {es : List (String × α)} (hes : ∀ e' ∈ es, a.1 < e'.1) (he : e ∈ es) : e ≠ a :=
        fun heq => String.lt_irrefl _ (heq ▸ hes e he)
      constructor
      · intro he
        exact (List.mem_cons.1 ((h e).1 (.tail _ he))).resolve_left (hne ha'.1 he)
      · intro he
        exact (List.mem_cons.1 ((h e).2 (.tail _ he))).resolve_left (hne hb'.1 he)

theorem ext_get? {m n : FieldMap α} (h : ∀ f, m.get? f = n.get? f) : m = n := by
  have : m.entries = n.entries := entries_eq_of_mem_iff m.sorted n.sorted fun (f, a) => by
    rw [← get?_eq_some_iff, ← get?_eq_some_iff, h]
  cases m; cases n; simp_all

end FieldMap

end EntitySearch
