import EntitySearch.Json.Reader

/-!
# Reading strings

`stringBody` reads a string after its opening quote. A character outside the basic plane may be
written as an escaped pair of surrogates, and a surrogate outside such a pair is refused.
`skipString` passes over a string without asking what its escapes stand for.
-/

namespace EntitySearch
namespace Reader

def hexValue? (c : Char) : Option Nat :=
  if '0' ≤ c ∧ c ≤ '9' then some (c.toNat - '0'.toNat)
  else if 'a' ≤ c ∧ c ≤ 'f' then some (c.toNat - 'a'.toNat + 10)
  else if 'A' ≤ c ∧ c ≤ 'F' then some (c.toNat - 'A'.toNat + 10)
  else none

def utf8Length (s : List Char) : Nat := s.foldl (fun n c => n + c.utf8Size) 0

/-- The number given by the four hexadecimal digits of an escape. The text ends too early when it
has less than four bytes left, whatever they are. -/
def hexEscape : Reader Nat where
  run s := match s with
    | a :: b :: c :: d :: rest =>
      match hexValue? a, hexValue? b, hexValue? c, hexValue? d with
      | some a, some b, some c, some d => .ok (((a * 16 + b) * 16 + c) * 16 + d, rest)
      | _, _, _, _ => .error .invalidEscape
    | _ => .error (if utf8Length s < 4 then .endOfText .string else .invalidEscape)
  le {s a r} h := by
    split at h
    · split at h <;> cases h
      simp; omega
    · cases h

def isLeadingSurrogate (n : Nat) : Bool := 0xD800 ≤ n && n ≤ 0xDBFF

def isTrailingSurrogate (n : Nat) : Bool := 0xDC00 ≤ n && n ≤ 0xDFFF

def ofSurrogates (leading trailing : Nat) : Char :=
  .ofNat ((leading - 0xD800) * 1024 + (trailing - 0xDC00) + 0x10000)

/-- Takes a character that the second half of a surrogate pair must begin with. -/
def pairChar (expected : Char) : Reader Unit := do
  if (← next (.endOfText .string)) = expected then return else fail .unfinishedSurrogatePair

def unicodeEscape : Reader Char := do
  let n ← hexEscape
  if isTrailingSurrogate n then fail .loneSurrogate
  else if isLeadingSurrogate n then
    pairChar '\\'
    pairChar 'u'
    let m ← hexEscape
    if isTrailingSurrogate m then return ofSurrogates n m else fail .loneSurrogate
  else return .ofNat n

/-- What the character after a backslash stands for, unless more characters belong to the escape. -/
def shortEscape? : Char → Option Char
  | '"' => some '"'
  | '\\' => some '\\'
  | '/' => some '/'
  | 'b' => some '\x08'
  | 'f' => some '\x0c'
  | 'n' => some '\n'
  | 'r' => some '\r'
  | 't' => some '\t'
  | _ => none

/-- What a character of a string begins, `escape` reading what comes after `\u`. -/
def stringItem (escape : Reader Char) (c : Char) : Reader Char := do
  if c = '\\' then
    let e ← next (.endOfText .string)
    match shortEscape? e with
    | some d => return d
    | none => if e = 'u' then escape else fail .invalidEscape
  else if c < ' ' then fail .controlCharacter
  else return c

/-- A string after its opening quote. -/
def stringBody : Reader String := do
  return .ofList (← untilQuote (stringItem unicodeEscape))

def skipString : Reader Unit := do
  let _ ← untilQuote (stringItem do
    let _ ← hexEscape
    return ' ')

end Reader
end EntitySearch
