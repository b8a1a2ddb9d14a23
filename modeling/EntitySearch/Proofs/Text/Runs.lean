import EntitySearch.Number.Integer
import Mathlib.Logic.Function.Basic

/-!
# Reading a text back from the left

A text that is put together from parts can be taken apart again if one sees where each part ends. Mostly
that is because its characters are all of one class and what follows does not go on with that class
(`append_inj_of_stops`), as with the digits of a number. `Stops` is the condition on what follows.
-/

namespace EntitySearch

/-- The text does not begin with a character of the class. -/
def Stops (class? : Char → Bool) (rest : List Char) : Prop := ∀ c ∈ rest.head?, class? c = false

section
variable {class? : Char → Bool} {a b s t : List Char}

@[simp] theorem stops_nil : Stops class? [] := nofun

@[simp] theorem stops_cons {c : Char} : Stops class? (c :: s) ↔ class? c = false := by
  simp [Stops]

theorem takeWhile_eq_nil_of_stops (hs : Stops class? s) : s.takeWhile class? = [] := by
  cases s with
  | nil => rfl
  | cons c s => rw [List.takeWhile_cons_of_neg (by simpa using hs)]

/-- A run of characters of a class and what follows it are determined by the text. -/
theorem append_inj_of_stops (ha : ∀ c ∈ a, class? c) (hb : ∀ c ∈ b, class? c) (hs : Stops class? s)
    (ht : Stops class? t) (h : a ++ s = b ++ t) : a = b ∧ s = t := by
  have hrun : (a ++ s).takeWhile class? = (b ++ t).takeWhile class? := by rw [h]
  rw [List.takeWhile_append_of_pos ha, List.takeWhile_append_of_pos hb, takeWhile_eq_nil_of_stops hs,
    takeWhile_eq_nil_of_stops ht, List.append_nil, List.append_nil] at hrun
  subst hrun
  exact ⟨rfl, List.append_cancel_left h⟩

end

/-! ### Numbers -/

theorem isDigit_of_mem_natChars {n : Nat} {c : Char} (h : c ∈ natChars n) : c.isDigit :=
  Nat.isDigit_of_mem_toDigits (by decide) (by decide) h

theorem natOfChars_eq (ds : List Char) : natOfChars ds = Nat.ofDigitChars 10 ds 0 := by
  simp only [natOfChars, Nat.ofDigitChars_eq_foldl, Nat.mul_comm]

@[simp] theorem natOfChars_natChars (n : Nat) : natOfChars (natChars n) = n := by
  rw [natOfChars_eq, natChars, Nat.ofDigitChars_ten_toDigits]

theorem natChars_injective : Function.Injective natChars :=
  Function.LeftInverse.injective natOfChars_natChars

theorem natChars_append_inj {m n : Nat} {s t : List Char} (hs : Stops Char.isDigit s)
    (ht : Stops Char.isDigit t) (h : natChars m ++ s = natChars n ++ t) : m = n ∧ s = t := by
  obtain ⟨hchars, hrest⟩ := append_inj_of_stops (fun _ => isDigit_of_mem_natChars)
    (fun _ => isDigit_of_mem_natChars) hs ht h
  exact ⟨natChars_injective hchars, hrest⟩

theorem natChars_ne_sign_cons (n : Nat) (rest : List Char) : natChars n ≠ '-' :: rest := by
  intro h
  have hdigit : '-'.isDigit := isDigit_of_mem_natChars (n := n) (h ▸ .head _)
  exact absurd hdigit (by decide)

theorem intChars_injective : Function.Injective intChars := by
  intro i j h
  unfold intChars at h
  split at h <;> split at h
  · have := natChars_injective (List.cons.inj h).2
    omega
  · exact absurd h.symm (natChars_ne_sign_cons _ _)
  · exact absurd h (natChars_ne_sign_cons _ _)
  · have := natChars_injective h
    omega

theorem isDigit_or_sign_of_mem_intChars {i : Int} {c : Char} (h : c ∈ intChars i) :
    c.isDigit ∨ c = '-' := by
  unfold intChars at h
  split at h
  · rcases List.mem_cons.1 h with rfl | h
    · exact .inr rfl
    · exact .inl (isDigit_of_mem_natChars h)
  · exact .inl (isDigit_of_mem_natChars h)

end EntitySearch
