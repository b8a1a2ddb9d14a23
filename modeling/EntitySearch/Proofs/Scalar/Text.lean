import EntitySearch.Proofs.Number.Plain
import EntitySearch.Proofs.Scalar

/-!
# Texts of constants

What follows a constant in a rendered predicate is nothing, a space or a closing parenthesis (`Delimits`). With
this the text of a constant of a known type can be told from what follows, and determines the constant
(`Scalar.text_append_inj`). In a string spaces and parentheses may stand themselves, but not a single quote.
-/

namespace EntitySearch

/-- Not a character that ends an operand. -/
def isSolid (c : Char) : Bool := c ≠ ' ' && c ≠ ')'

/-- What may follow an operand. -/
def Delimits (rest : List Char) : Prop := Stops isSolid rest

theorem isSolid_of_isDigit {c : Char} (h : c.isDigit) : isSolid c := by
  rw [isSolid, Bool.and_eq_true, decide_eq_true_iff, decide_eq_true_iff]
  constructor <;> rintro rfl <;> exact absurd h (by decide)

namespace Scalar
variable {v w : Scalar} {s t : List Char} {c : Char}

/-- A character of a string, as it is written between the quotes. -/
def quotedChar (c : Char) : List Char := if c = '\'' then ['\'', '\''] else [c]

theorem quotedChar_of_ne (h : c ≠ '\'') : quotedChar c = [c] := if_neg h

theorem exists_quotedChar (c : Char) : ∃ more, quotedChar c = c :: more := by
  unfold quotedChar
  split
  · next h => exact ⟨_, by rw [h]⟩
  · exact ⟨_, rfl⟩

/-- The quote that ends a string is one that no quote follows. -/
theorem quoted_append_inj (hs : Stops (· = '\'') s) (ht : Stops (· = '\'') t) (a b : List Char)
    (h : a.flatMap quotedChar ++ '\'' :: s = b.flatMap quotedChar ++ '\'' :: t) : a = b ∧ s = t := by
  -- A quote in one string is followed by a quote, the end of the other one is not.
  have hend {c : Char} {a s t : List Char} (ht : Stops (· = '\'') t) :
      quotedChar c ++ (a.flatMap quotedChar ++ '\'' :: s) ≠ '\'' :: t := by
    intro h
    by_cases hc : c = '\''
    · subst hc
      cases h
      simp at ht
    · rw [quotedChar_of_ne hc] at h
      exact hc (List.cons.inj h).1
  induction a generalizing b with
  | nil =>
    cases b with
    | nil => exact ⟨rfl, (List.cons.inj h).2⟩
    | cons d b =>
      rw [List.flatMap_cons, List.append_assoc] at h
      exact absurd h.symm (hend hs)
  | cons c a ih =>
    cases b with
    | nil =>
      rw [List.flatMap_cons, List.append_assoc] at h
      exact absurd h (hend ht)
    | cons d b =>
      rw [List.flatMap_cons, List.flatMap_cons, List.append_assoc, List.append_assoc] at h
      have hcd : c = d := by
        obtain ⟨more, hc⟩ := exists_quotedChar c
        obtain ⟨more', hd⟩ := exists_quotedChar d
        rw [hc, hd] at h
        exact (List.cons.inj h).1
      subst hcd
      obtain ⟨rfl, hst⟩ := ih b (List.append_cancel_left h)
      exact ⟨rfl, hst⟩

theorem toList_text_string (a : String) :
    (string a).text.toList = '\'' :: (a.toList.flatMap quotedChar ++ ['\'']) := String.toList_ofList

theorem isSolid_of_mem_text (hv : v.isFinite) (hs : ∀ a, v ≠ string a) : ∀ c ∈ v.text.toList, isSolid c := by
  cases v with
  | null => exact List.all_eq_true.1 (by decide)
  | bool b => cases b <;> exact List.all_eq_true.1 (by decide)
  | int i =>
    intro c hc
    rw [text, intText, String.toList_ofList] at hc
    obtain h | rfl := isDigit_or_sign_of_mem_intChars hc
    · exact isSolid_of_isDigit h
    · decide
  | float x =>
    intro c hc
    obtain h | rfl | rfl := Binary64.mem_write_plainLayout hv hc
    · exact isSolid_of_isDigit h
    · decide
    · decide
  | string a => exact absurd rfl (hs a)

theorem text_inj (hv : v.isFinite) (hw : w.isFinite) (htype : v.type? = w.type?) (hs : ∀ a, v ≠ string a)
    (h : v.text = w.text) : v = w := by
  cases v <;> cases w <;> simp only [type?, reduceCtorEq, Option.some.injEq] at htype
  case null.null => rfl
  case bool.bool b c => cases b <;> cases c <;> first | rfl | exact absurd h (by decide)
  case int.int i j =>
    have hint : i.toInt = j.toInt := intChars_injective (String.ofList_injective h)
    rw [Int64.toInt_inj.1 hint]
  case float.float x y => rw [Binary64.write_plainLayout_inj hv hw h]
  case string.string a b => exact absurd rfl (hs a)

theorem stops_quote_of_delimits (h : Delimits s) : Stops (· = '\'') s := by
  intro c hc
  rw [decide_eq_false_iff_not]
  rintro rfl
  exact absurd (h _ hc) (by decide)

theorem text_append_inj (hv : v.isFinite) (hw : w.isFinite) (htype : v.type? = w.type?) (hs : Delimits s)
    (ht : Delimits t) (h : v.text.toList ++ s = w.text.toList ++ t) : v = w ∧ s = t := by
  by_cases hstring : ∃ a, v = string a
  · obtain ⟨a, rfl⟩ := hstring
    obtain ⟨b, rfl⟩ : ∃ b, w = string b := by cases w <;> simp_all [type?]
    simp only [toList_text_string, List.cons_append, List.append_assoc, List.nil_append] at h
    obtain ⟨hab, hrest⟩ := quoted_append_inj (stops_quote_of_delimits hs) (stops_quote_of_delimits ht) _ _
      (List.cons.inj h).2
    exact ⟨by rw [String.toList_inj.1 hab], hrest⟩
  · have hv' : ∀ a, v ≠ string a := not_exists.1 hstring
    have hw' : ∀ a, w ≠ string a := by cases v <;> cases w <;> simp_all [type?]
    obtain ⟨htext, hrest⟩ :=
      append_inj_of_stops (isSolid_of_mem_text hv hv') (isSolid_of_mem_text hw hw') hs ht h
    exact ⟨text_inj hv hw htype hv' (String.toList_inj.1 htext), hrest⟩

end Scalar

end EntitySearch
