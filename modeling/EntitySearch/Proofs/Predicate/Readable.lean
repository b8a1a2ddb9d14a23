import EntitySearch.Predicate.Printer
import EntitySearch.Proofs.Scalar.Text
import EntitySearch.Proofs.Search.Compiled

/-!
# Rendered predicates are unambiguous

A predicate can be read off its text (`Predicate.text_unambiguous`), if the names in it are made of letters,
digits and underscores, the type of a constant is known from the field, and no operator joins a single operand.

As an operand, a predicate begins with a word, which is empty if a parenthesis comes first. The word and the
character behind it tell what kind of predicate it is (`alike_of_word_eq`); the rest, and what follows the predicate,
is then determined by induction (`determined_of_readable`).
-/

namespace EntitySearch

def isNameChar (c : Char) : Bool := c.isAlphanum || c = '_'

namespace FieldTest

/-- The names can be told from what is around them, and the constant has a text of its own. -/
structure Plain (x : FieldTest) : Prop where
  kind : ∀ c ∈ x.kind.toList, isNameChar c
  field : ∀ c ∈ x.field.toList, isNameChar c
  finite : x.value.isFinite

/-- A plain test for a value of the type that is known for the field. -/
structure Readable (typeOf : String → String → ScalarType) (x : FieldTest) : Prop extends Plain x where
  type : x.value.type? = some (typeOf x.kind x.field)

end FieldTest

namespace Predicate
variable {typeOf : String → String → ScalarType} {p q : Predicate} {ps qs : List Predicate} {s t : List Char}

/-! ### Operators -/

inductive Joiner
  | and
  | or

namespace Joiner

def name : Joiner → List Char
  | and => ['A', 'N', 'D']
  | or => ['O', 'R']

def apply : Joiner → List Predicate → Predicate
  | and => .and
  | or => .or

theorem isNameChar_of_mem_name (j : Joiner) : ∀ c ∈ j.name, isNameChar c := by
  cases j <;> exact List.all_eq_true.1 (by decide)

theorem name_injective : Function.Injective name := by
  intro i j h
  cases i <;> cases j <;> first | rfl | exact absurd h (by decide)

end Joiner

theorem exists_apply_of_isJoined (h : p.isJoined) : ∃ j ps, p = Joiner.apply j ps := by
  cases p with
  | and ps => exact ⟨.and, ps, rfl⟩
  | or ps => exact ⟨.or, ps, rfl⟩
  | _ => cases h

def laterOperands (j : Joiner) (ps : List Predicate) : List Char := laterChars (' ' :: (j.name ++ [' '])) ps

def joinedChars (j : Joiner) : List Predicate → List Char
  | [] => j.name ++ ['(', ')']
  | p :: ps => p.operandChars ++ laterOperands j ps

theorem laterOperands_nil_append (j : Joiner) (s : List Char) : laterOperands j [] ++ s = s := by
  simp [laterOperands, laterChars]

theorem laterOperands_cons_append (j : Joiner) (p : Predicate) (ps : List Predicate) (s : List Char) :
    laterOperands j (p :: ps) ++ s = ' ' :: (j.name ++ ' ' :: (p.operandChars ++ (laterOperands j ps ++ s))) := by
  simp [laterOperands, laterChars]

theorem chars_apply (j : Joiner) (ps : List Predicate) : (j.apply ps).chars = joinedChars j ps := by
  cases j <;> cases ps <;> simp only [Joiner.apply, chars, joinedChars] <;> rfl

theorem operandChars_apply (j : Joiner) (ps : List Predicate) :
    (j.apply ps).operandChars = '(' :: (joinedChars j ps ++ [')']) := by
  rw [operandChars, ← chars_apply]
  cases j <;> rfl

theorem operandChars_of_not_isJoined (h : ¬ p.isJoined) : p.operandChars = p.chars := by
  rw [operandChars, if_neg h]

/-! ### The first word -/

/-- The word with which an operand begins. -/
def word : Predicate → List Char
  | always => ['T', 'R', 'U', 'E']
  | never => ['F', 'A', 'L', 'S', 'E']
  | test x => x.kind.toList
  | not _ => ['N', 'O', 'T']
  | and _ | or _ => []

def afterWord : Predicate → List Char
  | always | never => []
  | test x => '.' :: (x.field.toList ++ ' ' :: '=' :: ' ' :: x.value.text.toList)
  | not p => ' ' :: p.operandChars
  | and ps => '(' :: (joinedChars .and ps ++ [')'])
  | or ps => '(' :: (joinedChars .or ps ++ [')'])

theorem operandChars_eq (p : Predicate) : p.operandChars = p.word ++ p.afterWord := by
  cases p with
  | and ps => exact operandChars_apply .and ps
  | or ps => exact operandChars_apply .or ps
  | test x => simp [operandChars, isJoined, chars, FieldTest.chars, word, afterWord]
  | always | never | not _ =>
    rw [operandChars_of_not_isJoined (by simp [isJoined]), chars]
    rfl

abbrev Readable (typeOf : String → String → ScalarType) (p : Predicate) : Prop :=
  p.Built (· ≠ 1) (FieldTest.Readable typeOf)

theorem isNameChar_of_mem_word (h : p.Readable typeOf) : ∀ c ∈ p.word, isNameChar c := by
  cases h with
  | test h => exact h.kind
  | always | never | not _ =>
    simp only [word]
    exact List.all_eq_true.1 (by decide)
  | and _ _ | or _ _ => exact List.forall_mem_nil _

theorem stops_isNameChar_of_delimits (h : Delimits s) : Stops isNameChar s := by
  intro c hc
  have hsolid := h c hc
  simp only [isSolid, Bool.and_eq_false_iff, decide_eq_false_iff_not, ne_eq, Decidable.not_not] at hsolid
  obtain rfl | rfl := hsolid <;> decide

theorem stops_afterWord (p : Predicate) (hs : Delimits s) : Stops isNameChar (p.afterWord ++ s) := by
  cases p with
  | always | never => exact stops_isNameChar_of_delimits hs
  | _ => exact stops_cons.2 (by decide)

theorem word_eq_of_append_eq (hp : p.Readable typeOf) (hq : q.Readable typeOf) (hs : Delimits s) (ht : Delimits t)
    (h : p.operandChars ++ s = q.operandChars ++ t) :
    p.word = q.word ∧ p.afterWord ++ s = q.afterWord ++ t := by
  rw [operandChars_eq, operandChars_eq, List.append_assoc, List.append_assoc] at h
  exact append_inj_of_stops (isNameChar_of_mem_word hp) (isNameChar_of_mem_word hq) (stops_afterWord p hs)
    (stops_afterWord q ht) h

/-- Predicates of one kind. -/
inductive Alike : Predicate → Predicate → Prop
  | always : Alike .always .always
  | never : Alike .never .never
  | test (x y : FieldTest) : Alike (.test x) (.test y)
  | not (p q : Predicate) : Alike (.not p) (.not q)
  | joined {p q : Predicate} (left : p.isJoined) (right : q.isJoined) : Alike p q

/-- Only in a test a point comes behind the word. -/
theorem afterWord_append_ne_point (hp : ∀ x, p ≠ test x) (hs : Delimits s) : p.afterWord ++ s ≠ '.' :: t := by
  intro h
  cases p with
  | always | never =>
    rw [afterWord, List.nil_append] at h
    subst h
    exact absurd (stops_cons.1 hs) (by decide)
  | test x => exact hp x rfl
  | not _ | and _ | or _ => exact absurd (List.cons.inj h).1 (by decide)

theorem alike_of_word_eq (hs : Delimits s) (ht : Delimits t) (hword : p.word = q.word)
    (hrest : p.afterWord ++ s = q.afterWord ++ t) : Alike p q := by
  cases p with
  | always =>
    cases q with
    | always => exact .always
    | test y => exact absurd hrest (afterWord_append_ne_point (by simp) hs)
    | _ => exact absurd hword (by simp [word])
  | never =>
    cases q with
    | never => exact .never
    | test y => exact absurd hrest (afterWord_append_ne_point (by simp) hs)
    | _ => exact absurd hword (by simp [word])
  | test x =>
    cases q with
    | test y => exact .test x y
    | _ => exact absurd hrest.symm (afterWord_append_ne_point (by simp) ht)
  | not p =>
    cases q with
    | not q => exact .not p q
    | test y => exact absurd hrest (afterWord_append_ne_point (by simp) hs)
    | _ => exact absurd hword (by simp [word])
  | and ps | or ps =>
    cases q with
    | and qs | or qs => exact .joined rfl rfl
    | test y => exact absurd hrest (afterWord_append_ne_point (by simp) hs)
    | _ => exact absurd hword (by simp [word])

/-! ### Operands -/

/-- The text of an operand determines it, and what follows it. -/
def Determined (typeOf : String → String → ScalarType) (p : Predicate) : Prop :=
  ∀ q : Predicate, q.Readable typeOf → ∀ s t, Delimits s → Delimits t →
    p.operandChars ++ s = q.operandChars ++ t → p = q ∧ s = t

/-- What may follow operands that are joined. -/
def Closes (rest : List Char) : Prop := Stops (· ≠ ')') rest

theorem Closes.delimits (h : Closes s) : Delimits s := by
  intro c hc
  have hclose : c = ')' := by simpa using h c hc
  rw [hclose]
  rfl

theorem delimits_laterOperands (j : Joiner) (ps : List Predicate) (hs : Closes s) :
    Delimits (laterOperands j ps ++ s) := by
  cases ps with
  | nil =>
    rw [laterOperands_nil_append]
    exact hs.delimits
  | cons p ps =>
    rw [laterOperands_cons_append]
    exact stops_cons.2 (by decide)

theorem closes_ne_laterOperands (j : Joiner) (hs : Closes s) : s ≠ laterOperands j (p :: ps) ++ t := by
  rw [laterOperands_cons_append]
  rintro rfl
  exact absurd (stops_cons.1 hs) (by decide)

/-- By induction on the operands: each begins behind an operator and ends before the next one or where all end. -/
theorem laterOperands_append_inj (j : Joiner) (hps : ∀ p ∈ ps, Determined typeOf p)
    (hqs : ∀ q ∈ qs, q.Readable typeOf) (hs : Closes s) (ht : Closes t)
    (h : laterOperands j ps ++ s = laterOperands j qs ++ t) : ps = qs ∧ s = t := by
  induction ps generalizing qs with
  | nil =>
    rw [laterOperands_nil_append] at h
    cases qs with
    | nil => exact ⟨rfl, h.trans (laterOperands_nil_append j t)⟩
    | cons q qs => exact absurd h (closes_ne_laterOperands j hs)
  | cons p ps ih =>
    cases qs with
    | nil =>
      rw [laterOperands_nil_append] at h
      exact absurd h.symm (closes_ne_laterOperands j ht)
    | cons q qs =>
      obtain ⟨hp, hlater⟩ := List.forall_mem_cons.1 hps
      obtain ⟨hq, hlater'⟩ := List.forall_mem_cons.1 hqs
      rw [laterOperands_cons_append, laterOperands_cons_append, List.cons.injEq] at h
      obtain ⟨hpq, hrest⟩ := hp q hq _ _ (delimits_laterOperands j ps hs) (delimits_laterOperands j qs ht)
        (List.cons.inj (List.append_cancel_left h.2)).2
      obtain ⟨hps, hst⟩ := ih hlater hlater' hrest
      exact ⟨by rw [hpq, hps], hst⟩

theorem operandChars_append_ne (j : Joiner) (hq : q.Readable typeOf) (ht : Delimits t) :
    q.operandChars ++ t ≠ j.name ++ '(' :: s := by
  intro h
  rw [operandChars_eq, List.append_assoc] at h
  obtain ⟨hword, hrest⟩ := append_inj_of_stops (isNameChar_of_mem_word hq) j.isNameChar_of_mem_name
    (stops_afterWord q ht) (stops_cons.2 (by decide)) h
  cases q with
  | test x => exact absurd hrest (by simp [afterWord])
  | _ => exact absurd hword (by cases j <;> simp [word, Joiner.name])

theorem joiner_eq_of_append_eq {i j : Joiner} {c d : Char} (hc : isNameChar c = false) (hd : isNameChar d = false)
    (h : i.name ++ c :: s = j.name ++ d :: t) : i = j ∧ c :: s = d :: t := by
  obtain ⟨hname, hrest⟩ := append_inj_of_stops i.isNameChar_of_mem_name j.isNameChar_of_mem_name
    (stops_cons.2 hc) (stops_cons.2 hd) h
  exact ⟨Joiner.name_injective hname, hrest⟩

/-- The text of operands that are joined determines the operands and the operator. A single operand would show no
operator. -/
theorem joinedChars_append_inj {i j : Joiner} (hps : ∀ p ∈ ps, p.Readable typeOf ∧ Determined typeOf p)
    (hqs : ∀ q ∈ qs, q.Readable typeOf) (hi : ps.length ≠ 1) (hj : qs.length ≠ 1) (hs : Closes s) (ht : Closes t)
    (h : joinedChars i ps ++ s = joinedChars j qs ++ t) : i = j ∧ ps = qs ∧ s = t := by
  match ps, qs with
  | [], [] =>
    simp only [joinedChars, List.append_assoc, List.cons_append, List.nil_append] at h
    obtain ⟨rfl, hrest⟩ := joiner_eq_of_append_eq (by decide) (by decide) h
    exact ⟨rfl, rfl, (List.cons.inj (List.cons.inj hrest).2).2⟩
  | [], q :: qs =>
    simp only [joinedChars, List.append_assoc] at h
    exact absurd h.symm (operandChars_append_ne i (hqs q (.head _)) (delimits_laterOperands j qs ht))
  | p :: ps, [] =>
    simp only [joinedChars, List.append_assoc] at h
    exact absurd h (operandChars_append_ne j (hps p (.head _)).1 (delimits_laterOperands i ps hs))
  | [p], _ => exact absurd rfl hi
  | _, [q] => exact absurd rfl hj
  | p₁ :: p₂ :: ps, q₁ :: q₂ :: qs =>
    simp only [joinedChars, List.append_assoc] at h
    obtain ⟨hfirst, hrest⟩ := (hps p₁ (.head _)).2 q₁ (hqs q₁ (.head _)) _ _ (delimits_laterOperands i _ hs)
      (delimits_laterOperands j _ ht) h
    obtain ⟨rfl, -⟩ : i = j ∧ _ := by
      have hcons := hrest
      rw [laterOperands_cons_append, laterOperands_cons_append] at hcons
      exact joiner_eq_of_append_eq (by decide) (by decide) (List.cons.inj hcons).2
    obtain ⟨hlater, hst⟩ := laterOperands_append_inj i (fun p hp => (hps p (.tail _ hp)).2)
      (fun q hq => hqs q (.tail _ hq)) hs ht hrest
    exact ⟨rfl, by rw [hfirst, hlater], hst⟩

theorem afterWord_apply (j : Joiner) (ps : List Predicate) (s : List Char) :
    (j.apply ps).afterWord ++ s = '(' :: (joinedChars j ps ++ ')' :: s) := by
  cases j <;> simp [Joiner.apply, afterWord]

theorem readable_apply_iff {j : Joiner} :
    (j.apply ps).Readable typeOf ↔ ps.length ≠ 1 ∧ ∀ p ∈ ps, p.Readable typeOf := by
  constructor
  · intro h
    cases j <;> cases h <;> exact ⟨‹_›, ‹_›⟩
  · rintro ⟨hcount, hps⟩
    cases j
    · exact .and hcount hps
    · exact .or hcount hps

theorem test_eq_of_append_eq {x y : FieldTest} (hx : x.Readable typeOf) (hy : y.Readable typeOf)
    (hs : Delimits s) (ht : Delimits t) (hword : (test x).word = (test y).word)
    (hrest : (test x).afterWord ++ s = (test y).afterWord ++ t) : x = y ∧ s = t := by
  obtain ⟨kind, field, value⟩ := x
  obtain ⟨kind', field', value'⟩ := y
  obtain rfl : kind = kind' := String.toList_inj.1 hword
  simp only [afterWord, List.cons_append, List.append_assoc, List.cons.injEq, true_and] at hrest
  obtain ⟨hfield, hvalue⟩ := append_inj_of_stops hx.field hy.field (stops_cons.2 (by decide))
    (stops_cons.2 (by decide)) hrest
  obtain rfl : field = field' := String.toList_inj.1 hfield
  simp only [List.cons.injEq, true_and] at hvalue
  obtain ⟨rfl, hst⟩ := Scalar.text_append_inj hx.finite hy.finite (hx.type.trans hy.type.symm) hs ht hvalue
  exact ⟨rfl, hst⟩

theorem determined_of_alike (hp : p.Readable typeOf)
    (h : ∀ q s t, q.Readable typeOf → Delimits s → Delimits t → Alike p q → p.word = q.word →
      p.afterWord ++ s = q.afterWord ++ t → p = q ∧ s = t) : Determined typeOf p := by
  intro q hq s t hs ht htext
  obtain ⟨hword, hrest⟩ := word_eq_of_append_eq hp hq hs ht htext
  exact h q s t hq hs ht (alike_of_word_eq hs ht hword hrest) hword hrest

theorem determined_apply (j : Joiner) (hp : (j.apply ps).Readable typeOf)
    (hps : ∀ p ∈ ps, Determined typeOf p) : Determined typeOf (j.apply ps) := by
  refine determined_of_alike hp fun q s t hq hs ht halike hword hrest => ?_
  have hjoined : q.isJoined := by
    cases j <;> cases halike <;> assumption
  obtain ⟨k, qs, rfl⟩ := exists_apply_of_isJoined hjoined
  obtain ⟨hcount, hall⟩ := readable_apply_iff.1 hp
  obtain ⟨hcount', hall'⟩ := readable_apply_iff.1 hq
  rw [afterWord_apply, afterWord_apply] at hrest
  obtain ⟨rfl, rfl, hclosed⟩ := joinedChars_append_inj (fun p hp => ⟨hall p hp, hps p hp⟩) hall' hcount hcount'
    (stops_cons.2 (by decide)) (stops_cons.2 (by decide)) (List.cons.inj hrest).2
  exact ⟨rfl, (List.cons.inj hclosed).2⟩

/-- By induction on the predicate. The first word tells what the other predicate is. -/
theorem determined_of_readable (hp : p.Readable typeOf) : Determined typeOf p := by
  induction hp with
  | always =>
    refine determined_of_alike .always fun q s t hq hs ht halike hword hrest => ?_
    cases halike with
    | always => exact ⟨rfl, hrest⟩
    | joined left => cases left
  | never =>
    refine determined_of_alike .never fun q s t hq hs ht halike hword hrest => ?_
    cases halike with
    | never => exact ⟨rfl, hrest⟩
    | joined left => cases left
  | test hx =>
    refine determined_of_alike (.test hx) fun q s t hq hs ht halike hword hrest => ?_
    cases halike with
    | test x y =>
      cases hq with
      | test hy =>
        obtain ⟨rfl, hst⟩ := test_eq_of_append_eq hx hy hs ht hword hrest
        exact ⟨rfl, hst⟩
    | joined left => cases left
  | not hp ih =>
    refine determined_of_alike (.not hp) fun q s t hq hs ht halike hword hrest => ?_
    cases halike with
    | not p q =>
      cases hq with
      | not hq =>
        obtain ⟨rfl, hst⟩ := ih q hq s t hs ht (List.cons.inj hrest).2
        exact ⟨rfl, hst⟩
    | joined left => cases left
  | and hcount hps ih => exact determined_apply .and (.and hcount hps) ih
  | or hcount hps ih => exact determined_apply .or (.or hcount hps) ih

/-! ### Whole texts -/

theorem chars_ne_joinedChars {j : Joiner} (hp : p.Readable typeOf) (hjoined : ¬ p.isJoined)
    (hqs : ∀ q ∈ qs, q.Readable typeOf) (hj : qs.length ≠ 1) : p.chars ≠ joinedChars j qs := by
  rw [← operandChars_of_not_isJoined hjoined]
  intro h
  match qs with
  | [] => exact operandChars_append_ne j hp stops_nil ((List.append_nil _).trans h)
  | [q] => exact hj rfl
  | q₁ :: q₂ :: qs =>
    rw [joinedChars, ← List.append_nil p.operandChars, ← List.append_nil (laterOperands ..)] at h
    obtain ⟨-, hrest⟩ := determined_of_readable hp q₁ (hqs q₁ (.head _)) _ _ stops_nil
      (delimits_laterOperands j _ stops_nil) h
    exact closes_ne_laterOperands j stops_nil hrest

theorem eq_of_chars_eq (hp : p.Readable typeOf) (hq : q.Readable typeOf) (h : p.chars = q.chars) : p = q := by
  by_cases hjp : p.isJoined
  · obtain ⟨i, ps, rfl⟩ := exists_apply_of_isJoined hjp
    obtain ⟨hi, hps⟩ := readable_apply_iff.1 hp
    rw [chars_apply] at h
    by_cases hjq : q.isJoined
    · obtain ⟨j, qs, rfl⟩ := exists_apply_of_isJoined hjq
      obtain ⟨hj, hqs⟩ := readable_apply_iff.1 hq
      rw [chars_apply, ← List.append_nil (joinedChars i ps), ← List.append_nil (joinedChars j qs)] at h
      obtain ⟨rfl, rfl, -⟩ := joinedChars_append_inj (fun p hp => ⟨hps p hp, determined_of_readable (hps p hp)⟩)
        hqs hi hj stops_nil stops_nil h
      rfl
    · exact absurd h.symm (chars_ne_joinedChars hq hjq hps hi)
  · by_cases hjq : q.isJoined
    · obtain ⟨j, qs, rfl⟩ := exists_apply_of_isJoined hjq
      obtain ⟨hj, hqs⟩ := readable_apply_iff.1 hq
      rw [chars_apply] at h
      exact absurd h (chars_ne_joinedChars hp hjp hqs hj)
    · rw [← operandChars_of_not_isJoined hjp, ← operandChars_of_not_isJoined hjq,
        ← List.append_nil p.operandChars, ← List.append_nil q.operandChars] at h
      exact (determined_of_readable hp q hq _ _ stops_nil stops_nil h).1

end Predicate

/-! ### Compiled predicates -/

def Schema.typeOf (s : Schema) (kind field : String) : ScalarType :=
  match (s.entity? kind).bind (·.searchableField? field) with
  | some f => f.type
  | none => .boolean

theorem Schema.Declares.typeOf_eq {s : Schema} {kind field : String} {type : ScalarType}
    (h : s.Declares kind field type) : s.typeOf kind field = type := by
  obtain ⟨e, hmem, hname, hf⟩ := h
  have he : s.entity? kind = some e := entity?_eq_some_iff.2 ⟨hmem, hname⟩
  have hsearchable : e.searchableField? field = some ⟨field, type, true⟩ :=
    (wellFormed hmem).searchableField?_eq_some_iff.2 ⟨List.mem_filter.2 ⟨hf, rfl⟩, rfl⟩
  simp only [typeOf, he, Option.bind_some, hsearchable]

namespace Predicate

theorem readable_of_compile {s : Schema} {t : Search} {p : Predicate} (h : t.compile s = .ok p)
    (hplain : ∀ x ∈ p.tests, x.Plain) : p.Readable s.typeOf := by
  refine (Search.built_wellTyped h).mono (fun n hn => ?_) fun x hx htyped => ?_
  · have : 2 ≤ n := hn
    omega
  · obtain ⟨type, hdeclared, htype⟩ := htyped.field
    exact ⟨hplain x hx, by rw [hdeclared.typeOf_eq, htype]⟩

/-- Equal texts are texts of the same predicate, if both have plain names and finite doubles, no operator with a
single operand, and constants of the types that are known for the fields. Predicates that are compiled with a
schema have no such operator, and their types are known from it. -/
theorem text_unambiguous :
    (∀ (typeOf : String → String → ScalarType) (p q : Predicate), p.Built (· ≠ 1) (FieldTest.Readable typeOf) →
      q.Built (· ≠ 1) (FieldTest.Readable typeOf) → p.text = q.text → p = q) ∧
    ∀ (s : Schema) (t₁ t₂ : Search) (p q : Predicate), t₁.compile s = .ok p → t₂.compile s = .ok q →
      (∀ x ∈ p.tests ++ q.tests, x.Plain) → p.text = q.text → p = q := by
  refine ⟨fun typeOf p q hp hq h => eq_of_chars_eq hp hq (String.ofList_injective h), ?_⟩
  intro s t₁ t₂ p q hp hq hplain h
  obtain ⟨hplain₁, hplain₂⟩ := List.forall_mem_append.1 hplain
  exact eq_of_chars_eq (readable_of_compile hp hplain₁) (readable_of_compile hq hplain₂)
    (String.ofList_injective h)

/-- A last name that looks like the end of one test and the beginning of another one. -/
def quotedOperator : FieldTest := ⟨"User", "last_name", .string "O'Neil' AND NOT User.id = 7"⟩

theorem plain_quotedOperator : quotedOperator.Plain where
  kind := List.all_eq_true.1 (by decide)
  field := List.all_eq_true.1 (by decide)
  finite := rfl

def quotedOperatorQuery : EntityQuery := (EntityQuery.ofKind "User").set "last_name" quotedOperator.value

/-- Two searches for the name, with operators that do nothing. -/
def quotedOperatorSearch : Search := .and [.entity quotedOperatorQuery, .not (.or [])]

def quotedOperatorSearch' : Search := .or [.and [.or [.entity quotedOperatorQuery], .not (.or [.or []])]]

/-- The predicates that they become. -/
def quotedOperatorOnly : Predicate := .and [.test quotedOperator, .not .never]

def quotedOperatorOnly' : Predicate := conjunction [.test quotedOperator, .not (disjunction [])]

theorem readable_quotedOperator : quotedOperatorOnly.Readable Schema.usersAndCompanies.typeOf := by
  have htest : quotedOperator.Readable Schema.usersAndCompanies.typeOf :=
    { plain_quotedOperator with type := by decide +kernel }
  refine .and (by decide) fun p hp => ?_
  simp only [List.mem_cons, List.not_mem_nil, or_false] at hp
  obtain rfl | rfl := hp
  · exact .test htest
  · exact .not .never

theorem text_unambiguous_quotedOperator :
    (quotedOperatorOnly.Built (· ≠ 1) (FieldTest.Readable Schema.usersAndCompanies.typeOf) ∧
      quotedOperatorOnly'.Built (· ≠ 1) (FieldTest.Readable Schema.usersAndCompanies.typeOf) ∧
      quotedOperatorOnly.text = "User.last_name = 'O''Neil'' AND NOT User.id = 7' AND NOT FALSE" ∧
      quotedOperatorOnly'.text = "User.last_name = 'O''Neil'' AND NOT User.id = 7' AND NOT FALSE" ∧
      quotedOperatorOnly = quotedOperatorOnly') ∧
    quotedOperatorSearch.compile .usersAndCompanies = .ok quotedOperatorOnly ∧
      quotedOperatorSearch'.compile .usersAndCompanies = .ok quotedOperatorOnly' ∧
      (∀ x ∈ quotedOperatorOnly.tests ++ quotedOperatorOnly'.tests, x.Plain) ∧
      quotedOperatorOnly = quotedOperatorOnly' := by
  have hp := readable_quotedOperator
  have hq : quotedOperatorOnly'.Readable Schema.usersAndCompanies.typeOf := readable_quotedOperator
  have hptext : quotedOperatorOnly.text = "User.last_name = 'O''Neil'' AND NOT User.id = 7' AND NOT FALSE" := by
    cbv
  have hqtext : quotedOperatorOnly'.text = "User.last_name = 'O''Neil'' AND NOT User.id = 7' AND NOT FALSE" := by
    cbv
  have hcompile : quotedOperatorSearch.compile .usersAndCompanies = .ok quotedOperatorOnly := by decide +kernel
  have hcompile' : quotedOperatorSearch'.compile .usersAndCompanies = .ok quotedOperatorOnly' := by
    decide +kernel
  have hplain : ∀ x ∈ quotedOperatorOnly.tests ++ quotedOperatorOnly'.tests, x.Plain := by
    intro x hx
    have heq : x = quotedOperator := by simpa [quotedOperatorOnly, quotedOperatorOnly', conjunction, disjunction,
      tests, testsOfList] using hx
    exact heq ▸ plain_quotedOperator
  exact ⟨⟨hp, hq, hptext, hqtext, text_unambiguous.1 _ _ _ hp hq (hptext.trans hqtext.symm)⟩,
    hcompile, hcompile', hplain,
    text_unambiguous.2 _ _ _ _ _ hcompile hcompile' hplain (hptext.trans hqtext.symm)⟩

/-- An operator does not show with a single operand, and neither does the type of a whole number. -/
example : (and [always]).text = always.text ∧
    (Scalar.int 1).text = (Scalar.float ⟨0x3ff0000000000000⟩).text :=
  ⟨by cbv, by decide +kernel⟩

end Predicate

end EntitySearch
