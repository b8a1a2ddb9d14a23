import EntitySearch.Json.ReadError

/-!
# Readers

A `Reader α` takes a value of type `α` off the front of a text or stops with a `ReadError`. What it
leaves is never longer than what it was given (`Reader.le`), so that readers compose to a monad and
the loops below end: each round takes at least the comma, quote or character it starts with.

The loops are `moreItems` for lists, `moreMembers` for objects and `untilQuote` for strings. The list
steps `firstItem?` and `laterItem?` also serve lists whose items are of different types.
-/

namespace EntitySearch

structure Reader (α : Type) where
  run : List Char → Except ReadError (α × List Char)
  le : ∀ {s a r}, run s = .ok (a, r) → r.length ≤ s.length

namespace Reader
variable {α β σ : Type}

def pure (a : α) : Reader α where
  run s := .ok (a, s)
  le h := by cases h; exact Nat.le_refl _

def bind (x : Reader α) (f : α → Reader β) : Reader β where
  run s := match x.run s with
    | .ok (a, r) => (f a).run r
    | .error e => .error e
  le {s b t} h := by
    split at h
    · next hx => exact Nat.le_trans ((f _).le h) (x.le hx)
    · cases h

instance : Monad Reader where
  pure := Reader.pure
  bind := Reader.bind

def fail (e : ReadError) : Reader α where
  run _ := .error e
  le h := by cases h

theorem run_pure (a : α) (s : List Char) : (Pure.pure a : Reader α).run s = .ok (a, s) := rfl

theorem run_bind (x : Reader α) (f : α → Reader β) (s : List Char) :
    (x >>= f).run s = match x.run s with
      | .ok (a, r) => (f a).run r
      | .error e => .error e := rfl

theorem run_fail (e : ReadError) (s : List Char) : (fail e : Reader α).run s = .error e := rfl

theorem run_bind_eq_ok {x : Reader α} {f : α → Reader β} {s t : List Char} {b : β} :
    (x >>= f).run s = .ok (b, t) ↔ ∃ a r, x.run s = .ok (a, r) ∧ (f a).run r = .ok (b, t) := by
  rw [run_bind]
  constructor
  · intro h
    split at h
    · next a r hx => exact ⟨a, r, hx, h⟩
    · cases h
  · rintro ⟨a, r, hx, hf⟩
    rw [hx]; exact hf

/-- The characters that may stand between the parts of a JSON text. -/
def isBlank (c : Char) : Bool := c = ' ' || c = '\n' || c = '\t' || c = '\r'

theorem length_dropWhile_le (p : Char → Bool) (s : List Char) : (s.dropWhile p).length ≤ s.length :=
  (List.dropWhile_sublist p).length_le

def blanks : Reader Unit where
  run s := .ok ((), s.dropWhile isBlank)
  le h := by cases h; exact length_dropWhile_le ..

/-- The next character, which stays in the text. -/
def peek? : Reader (Option Char) where
  run s := .ok (s.head?, s)
  le h := by cases h; exact Nat.le_refl _

def next? : Reader (Option Char) where
  run s := .ok (s.head?, s.tail)
  le h := by cases h; simp

def next (atEnd : ReadError) : Reader Char := do
  match ← next? with
  | some c => return c
  | none => fail atEnd

def peekVisible? : Reader (Option Char) := do
  blanks
  peek?

/-- Takes the longest run of characters of a class. -/
def takeAll (p : Char → Bool) : Reader (List Char) where
  run s := .ok (s.takeWhile p, s.dropWhile p)
  le h := by cases h; exact length_dropWhile_le ..

def word : List Char → Reader Unit
  | [] => pure ()
  | c :: rest => do
    let d ← next (.endOfText .value)
    if d = c then word rest else fail .expectedIdent

/-! ## Loops -/

/-- What is between an opening quote and the closing one, `item c` reading what `c` begins. -/
def untilQuote.go (item : Char → Reader α) (s : List Char) : Except ReadError (List α × List Char) :=
  match s with
  | [] => .error (.endOfText .string)
  | c :: rest =>
    if c = '"' then .ok ([], rest)
    else match _h : (item c).run rest with
      | .error e => .error e
      | .ok (a, r) => match go item r with
        | .error e => .error e
        | .ok (as, t) => .ok (a :: as, t)
termination_by s.length
decreasing_by have := (item c).le _h; simp; omega

theorem untilQuote.go_le {item : Char → Reader α} {s : List Char} {as : List α} {t : List Char}
    (h : go item s = .ok (as, t)) : t.length ≤ s.length := by
  fun_induction go item s generalizing as t with
  | case1 => cases h
  | case2 => cases h; simp
  | case3 => cases h
  | case4 => cases h
  | case5 c rest _ a r hr as' t' ht ih =>
    cases h
    have := ih ht
    have := (item c).le hr
    simp; omega

def untilQuote (item : Char → Reader α) : Reader (List α) := ⟨untilQuote.go item, untilQuote.go_le⟩

/-- The first item of a list after its opening bracket, or `none` if the closing one is taken. -/
def firstItem? (item : Reader α) : Reader (Option α) := do
  match ← peekVisible? with
  | none => fail (.endOfText .list)
  | some ']' =>
    let _ ← next?
    return none
  | some _ => return some (← item)

/-- What follows an item or a member: `none` if the closing character is taken, otherwise a comma is
taken and the character after it is given. -/
def comma? (inside : Unfinished) (close : Char) (missing : ReadError) : Reader (Option Char) := do
  blanks
  let c ← next (.endOfText inside)
  if c = close then return none
  else if c = ',' then
    match ← peekVisible? with
    | none => fail (.endOfText .value)
    | some d => if d = close then fail .trailingComma else return some d
  else fail missing

theorem next_lt {atEnd : ReadError} {s r : List Char} {c : Char}
    (h : (next atEnd).run s = .ok (c, r)) : r.length < s.length := by
  obtain ⟨d, r₁, h₁, h⟩ := run_bind_eq_ok.1 h
  cases s with
  | nil => cases h₁; cases h
  | cons a s => cases h₁; cases h; simp

theorem comma?_lt {inside : Unfinished} {close : Char} {missing : ReadError} {s r : List Char}
    {d : Option Char} (h : (comma? inside close missing).run s = .ok (d, r)) :
    r.length < s.length := by
  obtain ⟨_, r₁, h₁, h⟩ := run_bind_eq_ok.1 h
  obtain ⟨c, r₂, h₂, h⟩ := run_bind_eq_ok.1 h
  have := (blanks).le h₁
  have := next_lt h₂
  have : r.length ≤ r₂.length := Reader.le _ h
  omega

/-- The item after a comma, or `none` if the closing bracket is taken. -/
def laterItem? (item : Reader α) : Reader (Option α) := do
  match ← comma? .list ']' .expectedCommaOrBracket with
  | none => return none
  | some _ => return some (← item)

theorem laterItem?_lt {item : Reader α} {s r : List Char} {a : Option α}
    (h : (laterItem? item).run s = .ok (a, r)) : r.length < s.length := by
  obtain ⟨_, r₁, h₁, h⟩ := run_bind_eq_ok.1 h
  have := comma?_lt h₁
  have : r.length ≤ r₁.length := Reader.le _ h
  omega

def moreItems.go (item : Reader α) (s : List Char) : Except ReadError (List α × List Char) :=
  match _h : (laterItem? item).run s with
  | .error e => .error e
  | .ok (none, r) => .ok ([], r)
  | .ok (some a, r) => match go item r with
    | .error e => .error e
    | .ok (as, t) => .ok (a :: as, t)
termination_by s.length
decreasing_by exact laterItem?_lt _h

theorem moreItems.go_le {item : Reader α} {s t : List Char} {as : List α}
    (h : go item s = .ok (as, t)) : t.length ≤ s.length := by
  fun_induction go item s generalizing as t with
  | case1 => cases h
  | case2 s r hr => cases h; exact (laterItem? item).le hr
  | case3 => cases h
  | case4 s a r hr as' t' ht ih =>
    cases h
    exact Nat.le_trans (ih ht) (Nat.le_of_lt (laterItem?_lt hr))

def moreItems (item : Reader α) : Reader (List α) := ⟨moreItems.go item, moreItems.go_le⟩

def items (item : Reader α) : Reader (List α) := do
  match ← firstItem? item with
  | none => return []
  | some a => return a :: (← moreItems item)

/-- Takes the closing bracket of a list that has all its items; a further item is refused. -/
def closeList : Reader Unit := do
  blanks
  match ← next (.endOfText .list) with
  | ']' => return
  | ',' => if (← peekVisible?) = some ']' then fail .trailingComma else fail .trailingCharacters
  | _ => fail .trailingCharacters

/-- The name of the first member after the opening brace, or `none` if the closing one is taken.
`key` reads a name after its opening quote. -/
def firstKey? (key : Reader String) : Reader (Option String) := do
  blanks
  match ← next (.endOfText .object) with
  | '}' => return none
  | '"' => return some (← key)
  | _ => fail .keyMustBeString

/-- The name after a comma, or `none` if the closing brace is taken. -/
def laterKey? (key : Reader String) : Reader (Option String) := do
  match ← comma? .object '}' .expectedCommaOrBrace with
  | none => return none
  | some '"' =>
    let _ ← next?
    return some (← key)
  | some _ => fail .keyMustBeString

theorem laterKey?_lt {key : Reader String} {s r : List Char} {name : Option String}
    (h : (laterKey? key).run s = .ok (name, r)) : r.length < s.length := by
  obtain ⟨_, r₁, h₁, h⟩ := run_bind_eq_ok.1 h
  have := comma?_lt h₁
  have : r.length ≤ r₁.length := Reader.le _ h
  omega

/-- The members after the first one. `member` reads what follows a name, the colon included, and
gives the new state. -/
def moreMembers.go (key : Reader String) (member : σ → String → Reader σ) (state : σ)
    (s : List Char) : Except ReadError (σ × List Char) :=
  match _h : (laterKey? key).run s with
  | .error e => .error e
  | .ok (none, r) => .ok (state, r)
  | .ok (some name, r) => match _h' : (member state name).run r with
    | .error e => .error e
    | .ok (state', t) => go key member state' t
termination_by s.length
decreasing_by
  have := laterKey?_lt _h
  have := (member state name).le _h'
  omega

theorem moreMembers.go_le {key : Reader String} {member : σ → String → Reader σ} {state out : σ}
    {s t : List Char} (h : go key member state s = .ok (out, t)) : t.length ≤ s.length := by
  fun_induction go key member state s generalizing out t with
  | case1 => cases h
  | case2 _ s r hr => cases h; exact Nat.le_of_lt (laterKey?_lt hr)
  | case3 => cases h
  | case4 state s name r hr state' u hu ih =>
    have := ih h
    have := (member state name).le hu
    have := laterKey?_lt hr
    omega

def moreMembers (key : Reader String) (member : σ → String → Reader σ) (state : σ) : Reader σ :=
  ⟨moreMembers.go key member state, moreMembers.go_le⟩

/-- An object after its opening brace. -/
def members (key : Reader String) (member : σ → String → Reader σ) (state : σ) : Reader σ := do
  match ← firstKey? key with
  | none => return state
  | some name => moreMembers key member (← member state name)

def colon : Reader Unit := do
  blanks
  if (← next (.endOfText .object)) = ':' then return else fail .expectedColon

/-- The value of a whole text, blanks around it allowed. -/
def readAll (x : Reader α) (text : String) : Except ReadError α :=
  match x.run text.toList with
  | .error e => .error e
  | .ok (a, rest) => if (rest.dropWhile isBlank).isEmpty then .ok a else .error .trailingCharacters

end Reader

end EntitySearch
