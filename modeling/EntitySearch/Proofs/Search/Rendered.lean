import EntitySearch.Proofs.Search.Walk
import EntitySearch.Proofs.Text.Runs

/-!
# The text of a location

The text of a location determines the location (`Location.eq_of_text_eq`) where no name can be mistaken for another
part of the text. The steps after the first one all begin with a point or a bracket, and so a name ends where the next
step begins; the first step needs a look of its own, since there a name has no point before it.
-/

namespace EntitySearch

/-- Whether the character begins a step after the first one. -/
def isStepMark (c : Char) : Bool := c = '.' || c = '['

/-- The name has characters, and none that begins a step. -/
structure PlainName (name : String) : Prop where
  ne_empty : name ≠ ""
  unmarked : ∀ c ∈ name.toList, isStepMark c = false

theorem plainName_of_all {name : String} (h : name ≠ "") (hall : name.toList.all (!isStepMark ·)) :
    PlainName name :=
  ⟨h, fun c hc => by simpa using List.all_eq_true.1 hall c hc⟩

namespace Location

/-- The names on the way are plain, and the location is not that of a member `$` of the root. -/
structure Plain (l : Location) : Prop where
  names : ∀ name, .member name ∈ l.steps → PlainName name
  ne_dollar : l ≠ root.member "$"

/-- The steps after the first one. -/
abbrev laterChars (later : List Step) : List Char := later.flatMap laterStep

variable {first : Step} {later later' : List Step} {name name' : String} {s t : List Char}

theorem stops_laterChars (later : List Step) : Stops (!isStepMark ·) (laterChars later) := by
  cases later with
  | nil => simp
  | cons step later => cases step <;> simp [laterStep, isStepMark]

theorem name_append_inj (hn : PlainName name) (hn' : PlainName name')
    (h : name.toList ++ laterChars later = name'.toList ++ laterChars later') :
    name = name' ∧ laterChars later = laterChars later' := by
  have hclass {name : String} (hn : PlainName name) : ∀ c ∈ name.toList, !isStepMark c :=
    fun c hc => by simp [hn.unmarked c hc]
  obtain ⟨hname, hrest⟩ := append_inj_of_stops (hclass hn) (hclass hn') (stops_laterChars later)
    (stops_laterChars later') h
  exact ⟨String.toList_inj.1 hname, hrest⟩

/-- An index ends at its closing bracket, which is no digit. -/
theorem item_append_inj {i j : Nat} (h : laterStep (.item i) ++ s = laterStep (.item j) ++ t) :
    i = j ∧ s = t := by
  simp only [laterStep, List.cons_append, List.append_assoc, List.cons.injEq, true_and] at h
  obtain ⟨hindex, hrest⟩ := natChars_append_inj (by simp) (by simp) h
  exact ⟨hindex, List.cons.inj hrest |>.2⟩

theorem laterChars_inj (hl : ∀ name, .member name ∈ later → PlainName name)
    (hl' : ∀ name, .member name ∈ later' → PlainName name) (h : laterChars later = laterChars later') :
    later = later' := by
  induction later generalizing later' with
  | nil => cases later' with
    | nil => rfl
    | cons step' _ => cases step' <;> simp [laterStep] at h
  | cons step later ih =>
    cases later' with
    | nil => cases step <;> simp [laterStep] at h
    | cons step' later' =>
      have ih' := ih (fun name hmem => hl name (.tail _ hmem)) (fun name hmem => hl' name (.tail _ hmem))
      simp only [laterChars, List.flatMap_cons] at h
      cases step with
      | member name =>
        cases step' with
        | member name' =>
          obtain ⟨rfl, hrest⟩ := name_append_inj (hl _ (.head _)) (hl' _ (.head _)) (List.cons.inj h).2
          rw [ih' hrest]
        | item j => simp [laterStep] at h
      | item i =>
        cases step' with
        | member name' => simp [laterStep] at h
        | item j =>
          obtain ⟨rfl, hrest⟩ := item_append_inj h
          rw [ih' hrest]

theorem exists_head_of_plainName (hn : PlainName name) :
    ∃ c cs, name.toList = c :: cs ∧ isStepMark c = false := by
  cases hcs : name.toList with
  | nil => exact absurd (String.toList_eq_nil_iff.1 hcs) hn.ne_empty
  | cons c cs => exact ⟨c, cs, rfl, hn.unmarked c (hcs ▸ .head _)⟩

theorem firstStep_member_ne_item (hn : PlainName name) {i : Nat} :
    firstStep (.member name) ++ s ≠ firstStep (.item i) ++ t := by
  obtain ⟨c, cs, hcs, hc⟩ := exists_head_of_plainName hn
  intro h
  rw [firstStep, hcs] at h
  obtain rfl : c = '[' := (List.cons.inj h).1
  simp [isStepMark] at hc

/-- Only a name `$` with nothing after it is written like the root. -/
theorem chars_cons_ne_root (hl : Plain ⟨first :: later⟩) : chars ⟨first :: later⟩ ≠ chars root := by
  intro h
  have h : firstStep first ++ laterChars later = ['$'] := h
  cases first with
  | item i => simp [firstStep, laterStep] at h
  | member name =>
    obtain ⟨c, cs, hcs, -⟩ := exists_head_of_plainName (hl.names name (.head _))
    rw [firstStep, hcs, List.cons_append, List.cons.injEq, List.append_eq_nil_iff] at h
    obtain ⟨rfl, rfl, hlater⟩ := h
    have hnil : later = [] := laterChars_inj (fun name hmem => hl.names name (.tail _ hmem)) nofun hlater
    have hname : name = "$" := String.toList_inj.1 hcs
    exact hl.ne_dollar (by rw [hnil, hname]; rfl)

theorem eq_of_chars_eq {l m : Location} (hl : l.Plain) (hm : m.Plain) (h : l.chars = m.chars) : l = m := by
  obtain ⟨steps⟩ := l
  obtain ⟨steps'⟩ := m
  cases steps with
  | nil => cases steps' with
    | nil => rfl
    | cons first' later' => exact absurd h.symm (chars_cons_ne_root hm)
  | cons first later =>
    cases steps' with
    | nil => exact absurd h (chars_cons_ne_root hl)
    | cons first' later' =>
      have hlater := fun name hmem => hl.names name (.tail _ hmem)
      have hlater' := fun name hmem => hm.names name (.tail _ hmem)
      have h : firstStep first ++ laterChars later = firstStep first' ++ laterChars later' := h
      cases first with
      | member name =>
        have hn := hl.names name (.head _)
        cases first' with
        | member name' =>
          obtain ⟨rfl, hrest⟩ := name_append_inj hn (hm.names name' (.head _)) h
          rw [laterChars_inj hlater hlater' hrest]
        | item j => exact absurd h (firstStep_member_ne_item hn)
      | item i =>
        cases first' with
        | member name' => exact absurd h.symm (firstStep_member_ne_item (hm.names name' (.head _)))
        | item j =>
          obtain ⟨rfl, hrest⟩ := item_append_inj h
          rw [laterChars_inj hlater hlater' hrest]

/-- The text of a location determines its steps. -/
theorem eq_of_text_eq {l m : Location} (hl : l.Plain) (hm : m.Plain) (h : l.text = m.text) : l = m :=
  eq_of_chars_eq hl hm (String.ofList_inj.1 h)

/-- The last name in the negation that is the eleventh operand of the root, once reached from node to node and
once by its steps. -/
theorem eq_of_text_eq_lastName :
    ((ofDescents [.item 10, .child]).member "last_name").Plain ∧
      Plain ⟨[.member "children", .item 10, .member "child", .member "last_name"]⟩ ∧
      ((ofDescents [.item 10, .child]).member "last_name").text = "children[10].child.last_name" ∧
      text ⟨[.member "children", .item 10, .member "child", .member "last_name"]⟩ =
        "children[10].child.last_name" ∧
      (ofDescents [.item 10, .child]).member "last_name" =
        ⟨[.member "children", .item 10, .member "child", .member "last_name"]⟩ := by
  have hplain : Plain ⟨[.member "children", .item 10, .member "child", .member "last_name"]⟩ := by
    refine ⟨fun name hmem => ?_, by decide⟩
    obtain rfl | rfl | rfl : name = "children" ∨ name = "child" ∨ name = "last_name" := by simpa using hmem
    all_goals exact plainName_of_all (by decide) (by decide)
  have htext : ((ofDescents [.item 10, .child]).member "last_name").text =
      text ⟨[.member "children", .item 10, .member "child", .member "last_name"]⟩ := by decide
  exact ⟨hplain, hplain, by decide, by decide, eq_of_text_eq hplain hplain htext⟩

/-- Each condition is needed: a point or a bracket in a name looks like a step, a first name that is empty is
not seen, and a name on its own may look like the root. -/
example :
    (root.member "a.b").text = ((root.member "a").member "b").text ∧
      (root.member "a[0]").text = ((root.member "a").item 0).text ∧
      ((root.member "").item 0).text = (root.item 0).text ∧ (root.member "$").text = root.text := by
  decide

end Location

end EntitySearch
