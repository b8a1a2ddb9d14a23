import EntitySearch.Json.NumberReader
import EntitySearch.Json.StringReader

/-!
# Passing over a value

`Reader.skipValue` takes a value nobody asks for. It builds nothing, so it bounds neither the nesting
nor the size of a number, and it does not ask whether surrogates come in pairs. It keeps the brackets
that are open in a list of its own and is in one of three phases: before a value, behind an opening
bracket, or behind a value. A round without a character taken goes to a lower phase.
-/

namespace EntitySearch

inductive Bracket
  | list
  | object
deriving DecidableEq

namespace Bracket

def close : Bracket → Char
  | list => ']'
  | object => '}'

def unfinished : Bracket → Unfinished
  | list => .list
  | object => .object

def expectedComma : Bracket → ReadError
  | list => .expectedCommaOrBracket
  | object => .expectedCommaOrBrace

end Bracket

namespace Reader

def skipScalar : Reader Unit := do
  match ← peekVisible? with
  | none => fail (.endOfText .value)
  | some 'n' => word "null".toList
  | some 't' => word "true".toList
  | some 'f' => word "false".toList
  | some '"' =>
    let _ ← next?
    skipString
  | some c => if c = '-' || isDigit c then skipNumber else fail .expectedValue

/-- What stands before the value of an item or a member: a name and a colon in an object. -/
def skipKey : Bracket → Reader Unit
  | .list => pure ()
  | .object => do
    blanks
    if (← next (.endOfText .object)) = '"' then
      skipString
      colon
    else fail .keyMustBeString

/-- Where a skipping reader stands. -/
inductive SkipPhase
  | beforeValue
  | behindOpening (bracket : Bracket)
  | behindValue

def SkipPhase.rank : SkipPhase → Nat
  | beforeValue => 1
  | behindOpening _ => 2
  | behindValue => 0

/-- Goes on until all of the `outer` brackets are closed. -/
def skipValue.go (phase : SkipPhase) (outer : List Bracket) (s : List Char) :
    Except ReadError (Unit × List Char) :=
  have _hs := length_dropWhile_le isBlank s
  match phase with
  | .beforeValue => match _h : s.dropWhile isBlank with
    | '[' :: r => go (.behindOpening .list) outer r
    | '{' :: r => go (.behindOpening .object) outer r
    | t => match _h' : skipScalar.run t with
      | .error e => .error e
      | .ok (_, r) => go .behindValue outer r
  | .behindOpening bracket => match _h : s.dropWhile isBlank with
    | [] => .error (.endOfText bracket.unfinished)
    | c :: r =>
      if c = bracket.close then go .behindValue outer r
      else match _h' : (skipKey bracket).run (c :: r) with
        | .error e => .error e
        | .ok (_, t) => go .beforeValue (bracket :: outer) t
  | .behindValue => match outer with
    | [] => .ok ((), s)
    | bracket :: outer => match _h : s.dropWhile isBlank with
      | [] => .error (.endOfText bracket.unfinished)
      | c :: r =>
        if c = bracket.close then go .behindValue outer r
        else if c = ',' then
          match _h' : (skipKey bracket).run r with
          | .error e => .error e
          | .ok (_, t) => go .beforeValue (bracket :: outer) t
        else .error bracket.expectedComma
termination_by (s.length, phase.rank)
decreasing_by
  all_goals try rw [_h] at _hs
  all_goals try have := Reader.le _ _h'
  all_goals simp [Prod.lex_def, SkipPhase.rank] at *
  all_goals omega

theorem skipValue.go_le {phase : SkipPhase} {outer : List Bracket} {s r : List Char} {u : Unit}
    (h : go phase outer s = .ok (u, r)) : r.length ≤ s.length := by
  fun_induction go phase outer s with
  | case1 _ _ hs _ hr ih | case2 _ _ hs _ hr ih | case6 _ _ hs _ _ hr ih =>
    have := ih h
    rw [hr] at hs
    simp at hs
    omega
  | case4 _ _ hs _ _ _ _ hr ih =>
    have := ih h
    have := Reader.le _ hr
    omega
  | case8 _ _ hs _ _ _ ht _ _ _ hr ih =>
    have := ih h
    have := Reader.le _ hr
    rw [ht] at hs
    simp at *
    omega
  | case9 => cases h; exact Nat.le_refl _
  | case11 _ hs _ _ _ hr ih =>
    have := ih h
    rw [hr] at hs
    simp at hs
    omega
  | case13 _ hs _ _ _ _ _ hr ht _ ih =>
    have := ih h
    have := Reader.le _ hr
    rw [ht] at hs
    simp at hs
    omega
  | _ => cases h

def skipValue : Reader Unit := ⟨skipValue.go .beforeValue [], skipValue.go_le⟩

end Reader
end EntitySearch
