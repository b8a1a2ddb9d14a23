import EntitySearch.Proofs.Except
import EntitySearch.Search.Resolve

/-!
# What a grammar reads

`Form.Admits` says which nodes a form takes, and `Grammar.Reads` derives from it, node by node, which
search a payload stands for. Locations do not occur in either: they only tell where a fault is.

`Grammar.resolveNode_eq_ok_iff` is the whole of resolution as far as it succeeds: the searches it gives
are those that are read, as long as they are not too high for the limit.
-/

namespace EntitySearch

namespace Form
variable {form : Form} {location : Location} {members : List (String × Json)} {parts : Parts}

/-- A form takes a node if the node has its tag, knows only its fields, with values of their shapes or
`null`, and lacks none of the required ones. -/
structure Admits (form : Form) (members : List (String × Json)) : Prop where
  tag : tag? members = some form.tag
  known : ∀ m ∈ members, m.1 ≠ tagKey →
    ∃ field, form.field? m.1 = some field ∧ (m.2.isNull ∨ field.shape.admits m.2)
  complete : ∀ field ∈ form.fields, field.required → ¬ lacks members field.name

theorem tag?_eq_some_iff {tag : String} :
    tag? members = some tag ↔ members.lookup tagKey = some (.string tag) := by
  unfold tag?
  cases members.lookup tagKey with
  | none => simp
  | some value => cases value <;> simp [Json.string?]

theorem memberFault?_eq_none_iff {name : String} {value : Json} :
    form.memberFault? location name value = none ↔ (name ≠ tagKey →
      ∃ field, form.field? name = some field ∧ (value.isNull ∨ field.shape.admits value)) := by
  unfold memberFault?
  by_cases ht : name = tagKey
  · simp [ht]
  · cases hf : form.field? name with
    | none => simp [ht]
    | some field =>
      simp only [ht, if_false, Bool.or_eq_true, ite_eq_left_iff, reduceCtorEq, imp_false, Decidable.not_not]
      exact ⟨fun h _ => ⟨field, rfl, h⟩, fun h => by obtain ⟨_, hf, h⟩ := h ht; cases hf; exact h⟩

theorem faults_eq_nil_iff : form.faults location members = [] ↔
    (∀ m ∈ members, m.1 ≠ tagKey →
      ∃ field, form.field? m.1 = some field ∧ (m.2.isNull ∨ field.shape.admits m.2)) ∧
    ∀ field ∈ form.fields, field.required → ¬ lacks members field.name := by
  simp only [faults, List.append_eq_nil_iff, List.filterMap_eq_nil_iff, memberFault?_eq_none_iff,
    List.map_eq_nil_iff, List.filter_eq_nil_iff, Bool.and_eq_true, not_and]

theorem admits_iff (location : Location) :
    form.Admits members ↔ tag? members = some form.tag ∧ form.faults location members = [] := by
  rw [faults_eq_nil_iff]
  exact ⟨fun h => ⟨h.tag, h.known, h.complete⟩, fun ⟨htag, hknown, hcomplete⟩ => ⟨htag, hknown, hcomplete⟩⟩

theorem read_eq_ok_iff :
    form.read location members = .ok parts ↔ form.Admits members ∧ parts = form.parts members := by
  rw [admits_iff location, read]
  by_cases htag : tag? members = some form.tag
  · rw [if_pos htag]
    split
    · next hnil => simp [htag, hnil, eq_comm]
    · next hne => simp [show form.faults location members ≠ [] from hne]
  · simp [htag]

theorem read_eq_otherTag_iff :
    form.read location members = .error .otherTag ↔ tag? members ≠ some form.tag := by
  rw [read]
  by_cases htag : tag? members = some form.tag
  · rw [if_pos htag]
    split <;> simp [htag]
  · simp [htag]

theorem read_eq_faulty_iff {faults : List Fault} : form.read location members = .error (.faulty faults) ↔
    tag? members = some form.tag ∧ ¬ form.Admits members ∧ faults = form.faults location members := by
  rw [admits_iff location, read]
  by_cases htag : tag? members = some form.tag
  · rw [if_pos htag]
    split
    · next hnil => simp [htag, hnil]
    · next hne => simp [htag, show form.faults location members ≠ [] from hne, eq_comm (a := faults)]
  · simp [htag]

end Form

namespace Grammar
variable {g : Grammar} {limit : Option Nat} {location : Location} {depth : Nat}

theorem offer_eq_ok_iff {members : List (String × Json)} {seen : String} {tried : List String}
    {forms : List Form} {parts : Parts} (hnd : (forms.map Form.tag).Nodup) :
    offer location members seen tried forms = .ok parts ↔
      ∃ form ∈ forms, form.Admits members ∧ parts = form.parts members := by
  constructor
  · intro h
    obtain ⟨form, hform, hr⟩ := offer_eq_ok h
    exact ⟨form, hform, Form.read_eq_ok_iff.1 hr⟩
  · rintro ⟨form, hform, h⟩
    induction forms generalizing tried with
    | nil => cases hform
    | cons f rest ih =>
      obtain ⟨hf, hnd⟩ := List.nodup_cons.1 hnd
      rw [offer]
      rcases List.mem_cons.1 hform with rfl | hform
      · rw [Form.read_eq_ok_iff.2 h]
      · have hother : f.read location members = .error .otherTag := by
          rw [Form.read_eq_otherTag_iff, h.1.tag]
          intro htag
          exact hf (Option.some.inj htag ▸ List.mem_map_of_mem hform)
        rw [hother]
        exact ih hnd hform

theorem readNode_eq_ok_iff {payload : Json} {parts : Parts} :
    g.readNode limit location depth payload = .ok parts ↔
      (∀ l ∈ limit, depth ≤ l) ∧ ∃ members, payload = .object members ∧
        ∃ form ∈ g.forms, form.Admits members ∧ parts = form.parts members := by
  have hlimit : limit.filter (· < depth) = none ↔ ∀ l ∈ limit, depth ≤ l := by
    cases limit <;> simp
  unfold readNode
  constructor
  · intro h
    split at h
    · cases h
    next hl =>
      refine ⟨hlimit.1 hl, ?_⟩
      split at h
      · next members =>
        split at h <;> try cases h
        exact ⟨members, rfl, (offer_eq_ok_iff g.nodup_tags).1 h⟩
      · cases h
  · rintro ⟨hl, members, rfl, form, hform, h, hparts⟩
    simp only [hlimit.2 hl, Form.tag?_eq_some_iff.1 h.tag]
    exact (offer_eq_ok_iff g.nodup_tags).2 ⟨form, hform, h, hparts⟩

mutual

/-- The payload stands for the search. -/
inductive Reads (g : Grammar) : Json → Search → Prop
  | not {members t} (form : .not ∈ g.forms) (admits : Form.not.Admits members)
      (child : g.Reads (Form.child members) t) : g.Reads (.object members) (.not t)
  | or {members ts} (form : .or ∈ g.forms) (admits : Form.or.Admits members)
      (children : g.ReadsAll (Form.children members) ts) : g.Reads (.object members) (.or ts)
  | and {members ts} (form : .and ∈ g.forms) (admits : Form.and.Admits members)
      (children : g.ReadsAll (Form.children members) ts) : g.Reads (.object members) (.and ts)
  | entity {members kind fields} (form : .entity kind fields ∈ g.forms)
      (admits : (Form.entity kind fields).Admits members) :
      g.Reads (.object members) (.entity ((Form.entity kind fields).query members))

inductive ReadsAll (g : Grammar) : List Json → List Search → Prop
  | nil : g.ReadsAll [] []
  | cons {payload t payloads ts} (head : g.Reads payload t) (tail : g.ReadsAll payloads ts) :
      g.ReadsAll (payload :: payloads) (t :: ts)

end

end Grammar

namespace Search

mutual

/-- How many nodes there are on the longest way from the root to a leaf. -/
def height : Search → Nat
  | not child => child.height + 1
  | and children | or children => heightOfList children + 1
  | entity _ => 1

def heightOfList : List Search → Nat
  | [] => 0
  | t :: ts => max t.height (heightOfList ts)

end

theorem height_pos (t : Search) : 0 < t.height := by
  cases t <;> simp [height]

theorem heightOfList_le_iff {ts : List Search} {n : Nat} :
    heightOfList ts ≤ n ↔ ∀ t ∈ ts, t.height ≤ n := by
  induction ts with
  | nil => simp [heightOfList]
  | cons t ts ih => rw [heightOfList, Nat.max_le, ih, List.forall_mem_cons]

/-- Below a node at `depth`, a limit leaves room for the children iff it does for the node and each
of them. -/
theorem depth_add_heightOfList_le_iff {ts : List Search} {depth l : Nat} :
    depth + (heightOfList ts + 1) ≤ l + 1 ↔
      depth ≤ l ∧ ∀ t ∈ ts, depth + 1 + t.height ≤ l + 1 := by
  constructor
  · intro h
    refine ⟨by omega, fun t ht => ?_⟩
    have := heightOfList_le_iff.1 (Nat.le_refl _) t ht
    omega
  · rintro ⟨hd, h⟩
    have : heightOfList ts ≤ l - depth :=
      heightOfList_le_iff.2 fun t ht => by have := h t ht; omega
    omega

end Search

namespace Grammar
variable {g : Grammar} {limit : Option Nat}

/-- What follows once the node at `location` is read. -/
def resolveParts (g : Grammar) (limit : Option Nat) (location : Location) (depth : Nat) :
    Parts → Except Rejection Search
  | .not child => (g.resolveNode limit (location.member "child") (depth + 1) child).map .not
  | .or children =>
    (g.resolveNodes limit (location.member "children") 0 (depth + 1) children).map .or
  | .and children =>
    (g.resolveNodes limit (location.member "children") 0 (depth + 1) children).map .and
  | .entity query => .ok (.entity query)

theorem resolveNode_eq (location : Location) (depth : Nat) (payload : Json) :
    g.resolveNode limit location depth payload =
      match g.readNode limit location depth payload with
      | .error e => .error e
      | .ok parts => g.resolveParts limit location depth parts := by
  rw [resolveNode]
  split <;> next h => rw [h] <;> rfl

mutual

theorem reads_of_resolveNode {location : Location} {depth : Nat} {payload : Json} {t : Search}
    (h : g.resolveNode limit location depth payload = .ok t) :
    g.Reads payload t ∧ ∀ l ∈ limit, depth + t.height ≤ l + 1 := by
  rw [resolveNode_eq] at h
  split at h
  · cases h
  next parts hn =>
  obtain ⟨hd, members, rfl, form, hform, hadmits, rfl⟩ := readNode_eq_ok_iff.1 hn
  cases form with
  | not =>
    obtain ⟨child, hc, rfl⟩ := map_eq_ok_iff.1 h
    obtain ⟨hr, hl⟩ := reads_of_resolveNode hc
    refine ⟨.not hform hadmits hr, fun l hlim => ?_⟩
    have := hl l hlim
    simp only [Search.height]; omega
  | or =>
    obtain ⟨ts, hc, rfl⟩ := map_eq_ok_iff.1 h
    obtain ⟨hr, hl⟩ := readsAll_of_resolveNodes hc
    exact ⟨.or hform hadmits hr,
      fun l hlim => Search.depth_add_heightOfList_le_iff.2 ⟨hd l hlim, hl l hlim⟩⟩
  | and =>
    obtain ⟨ts, hc, rfl⟩ := map_eq_ok_iff.1 h
    obtain ⟨hr, hl⟩ := readsAll_of_resolveNodes hc
    exact ⟨.and hform hadmits hr,
      fun l hlim => Search.depth_add_heightOfList_le_iff.2 ⟨hd l hlim, hl l hlim⟩⟩
  | entity kind fields =>
    cases h
    refine ⟨.entity hform hadmits, fun l hlim => ?_⟩
    have := hd l hlim
    simp only [Search.height]; omega
termination_by sizeOf t

theorem readsAll_of_resolveNodes {location : Location} {index depth : Nat} {payloads : List Json}
    {ts : List Search} (h : g.resolveNodes limit location index depth payloads = .ok ts) :
    g.ReadsAll payloads ts ∧ ∀ l ∈ limit, ∀ t ∈ ts, depth + t.height ≤ l + 1 := by
  cases payloads with
  | nil => rw [resolveNodes] at h; cases h; exact ⟨.nil, by simp⟩
  | cons payload rest =>
    rw [resolveNodes] at h
    split at h
    · cases h
    next t ht =>
    obtain ⟨ts, hts, rfl⟩ := map_eq_ok_iff.1 h
    obtain ⟨hr, hl⟩ := reads_of_resolveNode ht
    obtain ⟨hrs, hls⟩ := readsAll_of_resolveNodes hts
    exact ⟨.cons hr hrs, fun l hlim => List.forall_mem_cons.2 ⟨hl l hlim, hls l hlim⟩⟩
termination_by sizeOf ts

end

mutual

theorem resolveNode_of_reads {location : Location} {depth : Nat} {payload : Json} {t : Search}
    (h : g.Reads payload t) (hl : ∀ l ∈ limit, depth + t.height ≤ l + 1) :
    g.resolveNode limit location depth payload = .ok t := by
  have hd : ∀ l ∈ limit, depth ≤ l := fun l hlim => by
    have := hl l hlim
    have := t.height_pos
    omega
  rw [resolveNode_eq]
  cases h with
  | not hform hadmits hr =>
    rw [readNode_eq_ok_iff.2 ⟨hd, _, rfl, .not, hform, hadmits, rfl⟩]
    refine map_eq_ok_iff.2 ⟨_, resolveNode_of_reads hr fun l hlim => ?_, rfl⟩
    have := hl l hlim
    simp only [Search.height] at this; omega
  | or hform hadmits hrs =>
    rw [readNode_eq_ok_iff.2 ⟨hd, _, rfl, .or, hform, hadmits, rfl⟩]
    refine map_eq_ok_iff.2 ⟨_, resolveNodes_of_readsAll hrs fun l hlim => ?_, rfl⟩
    exact (Search.depth_add_heightOfList_le_iff.1 (hl l hlim)).2
  | and hform hadmits hrs =>
    rw [readNode_eq_ok_iff.2 ⟨hd, _, rfl, .and, hform, hadmits, rfl⟩]
    refine map_eq_ok_iff.2 ⟨_, resolveNodes_of_readsAll hrs fun l hlim => ?_, rfl⟩
    exact (Search.depth_add_heightOfList_le_iff.1 (hl l hlim)).2
  | entity hform hadmits =>
    rw [readNode_eq_ok_iff.2 ⟨hd, _, rfl, _, hform, hadmits, rfl⟩]
    rfl
termination_by sizeOf t

theorem resolveNodes_of_readsAll {location : Location} {index depth : Nat} {payloads : List Json}
    {ts : List Search} (h : g.ReadsAll payloads ts)
    (hl : ∀ l ∈ limit, ∀ t ∈ ts, depth + t.height ≤ l + 1) :
    g.resolveNodes limit location index depth payloads = .ok ts := by
  cases h with
  | nil => rw [resolveNodes]
  | cons hr hrs =>
    rw [resolveNodes, resolveNode_of_reads hr fun l hlim => hl l hlim _ (.head _)]
    refine map_eq_ok_iff.2 ⟨_, resolveNodes_of_readsAll hrs fun l hlim t ht => ?_, rfl⟩
    exact hl l hlim t (.tail _ ht)
termination_by sizeOf ts

end

theorem resolveNode_eq_ok_iff {location : Location} {depth : Nat} {payload : Json} {t : Search} :
    g.resolveNode limit location depth payload = .ok t ↔
      g.Reads payload t ∧ ∀ l ∈ limit, depth + t.height ≤ l + 1 :=
  ⟨reads_of_resolveNode, fun h => resolveNode_of_reads h.1 h.2⟩

theorem resolve_eq_ok_iff {payload : Json} {t : Search} :
    g.resolve limit payload = .ok t ↔ g.Reads payload t ∧ ∀ l ∈ limit, t.height ≤ l := by
  rw [resolve, resolveNode_eq_ok_iff]
  refine and_congr_right fun _ => forall₂_congr fun l _ => ?_
  omega

end Grammar

end EntitySearch
