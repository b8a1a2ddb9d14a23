import EntitySearch.Proofs.Search.Violations

/-!
# The operands of a node that is read

The functions that take the parts of a node out of its members have something to give even where a member is absent or
of another shape: `null` for the child of a negation, no operands for the others. Nothing of that gets into a node that
is read (`Form.read_gives_operands`).
-/

namespace EntitySearch
namespace Form

/-- What a node of a form is made of, its operands being values that it holds. -/
inductive HasParts (members : List (String × Json)) : Form → Parts → Prop
  | not {child} (h : ("child", .object child) ∈ members) : HasParts members .not (.not (.object child))
  | or {items} (h : ("children", .array items) ∈ members) : HasParts members .or (.or items)
  | and {items} (h : ("children", .array items) ∈ members) : HasParts members .and (.and items)
  | entity {kind fields} :
      HasParts members (.entity kind fields) (.entity ((entity kind fields).query members))

variable {form : Form} {members : List (String × Json)} {parts : Parts}

theorem Admits.hasParts (hnd : (members.map Prod.fst).Nodup) (h : form.Admits members) :
    HasParts members form (form.parts members) := by
  cases form with
  | not =>
    obtain ⟨-, ⟨child, hmem⟩, -⟩ := (admits_not_iff hnd).1 h
    rw [parts, child_eq_of_mem hnd hmem]
    exact .not hmem
  | or =>
    obtain ⟨-, ⟨items, hmem⟩, -⟩ := (admits_join_iff .or rfl hnd).1 h
    rw [parts, children_eq_of_mem hnd hmem]
    exact .or hmem
  | and =>
    obtain ⟨-, ⟨items, hmem⟩, -⟩ := (admits_join_iff .and rfl hnd).1 h
    rw [parts, children_eq_of_mem hnd hmem]
    exact .and hmem
  | entity kind fields => exact .entity

theorem HasParts.eq (hnd : (members.map Prod.fst).Nodup) (h : HasParts members form parts) :
    parts = form.parts members := by
  cases h with
  | not h => rw [Form.parts, child_eq_of_mem hnd h]
  | or h => rw [Form.parts, children_eq_of_mem hnd h]
  | and h => rw [Form.parts, children_eq_of_mem hnd h]
  | entity => rfl

/-- A node is read iff it carries the tag of the form and is sound, and its operands are then the object or the
whole list that it holds. -/
theorem read_gives_operands (location : Location) (hnd : (members.map Prod.fst).Nodup) :
    form.read location members = .ok parts ↔
      (tagKey, .string form.tag) ∈ members ∧ form.Sound members ∧ HasParts members form parts := by
  rw [read_eq_ok_iff]
  constructor
  · rintro ⟨hadmits, rfl⟩
    have htag : (tagKey, .string form.tag) ∈ members := (tag?_eq_some_iff_mem hnd).1 hadmits.tag
    exact ⟨htag, (sound_iff_admits hnd htag).2 hadmits, hadmits.hasParts hnd⟩
  · rintro ⟨htag, hsound, hparts⟩
    exact ⟨(sound_iff_admits hnd htag).1 hsound, hparts.eq hnd⟩

/-- A disjunction of values that are no nodes. -/
def oddDisjunction : List (String × Json) :=
  [("children", .array [.null, .array [], .string "Not"]), ("type", .string "Or")]

theorem read_oddDisjunction : (oddDisjunction.map Prod.fst).Nodup ∧
    or.read .root oddDisjunction = .ok (.or [.null, .array [], .string "Not"]) ∧
      (tagKey, .string or.tag) ∈ oddDisjunction ∧ or.Sound oddDisjunction ∧
        HasParts oddDisjunction .or (.or [.null, .array [], .string "Not"]) := by
  have hnd : (oddDisjunction.map Prod.fst).Nodup := by decide
  have hread : or.read .root oddDisjunction = .ok (.or [.null, .array [], .string "Not"]) := rfl
  exact ⟨hnd, hread, (read_gives_operands .root hnd).1 hread⟩

end Form
end EntitySearch
