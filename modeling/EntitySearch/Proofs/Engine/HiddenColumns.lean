import EntitySearch.Proofs.Cursor.Stack
import EntitySearch.Proofs.Engine.Resolved
import EntitySearch.Proofs.Predicate.Kleene
import EntitySearch.Proofs.Search.Tests
import Mathlib.Data.List.Forall2

/-!
# Columns that are not searchable

A search cannot tell records apart that look alike, which is to be of one kind and to have the same
values in the columns that may be searched (`Record.LooksLike`). A test of a compiled search is of a searchable
field, so it says the same of two such records (`FieldTest.Fits.eval_congr`), and evaluation asks the tests for
nothing else (`Predicate.eval_congr`).
-/

namespace EntitySearch

/-- The elements of a list at the positions that are marked. -/
def marked {α : Type} : List Bool → List α → List α
  | mark :: marks, x :: xs => if mark then x :: marked marks xs else marked marks xs
  | _, _ => []

/-- The records are of one kind and read the same wherever a search may read them. -/
structure Record.LooksLike (s : Schema) (r r' : Record) : Prop where
  kind : r.kind = r'.kind
  get : ∀ e ∈ s.entity? r.kind, ∀ f ∈ e.searchableFields, r.get f.name = r'.get f.name

variable {s : Schema} {r r' : Record} {records records' : List Record}

theorem FieldTest.Fits.eval_congr {t : FieldTest} (ht : t.Fits s) (h : r.LooksLike s r') :
    t.eval r = t.eval r' := by
  refine FieldTest.eval_congr h.kind fun hk => ?_
  obtain ⟨e, he, f, hf, -⟩ := ht
  obtain ⟨hmem, hname⟩ := (Schema.wellFormed_of_entity? he).searchableField?_eq_some_iff.1 hf
  exact hname ▸ h.get e (hk ▸ he) f hmem

namespace Predicate

mutual

theorem eval_congr (p : Predicate) (h : ∀ t ∈ p.tests, t.eval r = t.eval r') : p.eval r = p.eval r' := by
  cases p with
  | always => rfl
  | never => rfl
  | test t => exact h t (.head _)
  | not p => exact congrArg (Except.map Truth.neg) (eval_congr p h)
  | and ps => exact evalAll_congr .true ps h
  | or ps => exact evalAny_congr .false ps h

theorem evalAll_congr (sofar : Truth) (ps : List Predicate)
    (h : ∀ t ∈ testsOfList ps, t.eval r = t.eval r') : evalAll r sofar ps = evalAll r' sofar ps := by
  cases ps with
  | nil => rfl
  | cons p ps =>
    obtain ⟨hp, hps⟩ := List.forall_mem_append.1 h
    rw [evalAll, evalAll, eval_congr p hp, evalAll_congr sofar ps hps, evalAll_congr .unknown ps hps]

theorem evalAny_congr (sofar : Truth) (ps : List Predicate)
    (h : ∀ t ∈ testsOfList ps, t.eval r = t.eval r') : evalAny r sofar ps = evalAny r' sofar ps := by
  cases ps with
  | nil => rfl
  | cons p ps =>
    obtain ⟨hp, hps⟩ := List.forall_mem_append.1 h
    rw [evalAny, evalAny, eval_congr p hp, evalAny_congr sofar ps hps, evalAny_congr .unknown ps hps]

end

theorem selects_congr {p : Predicate} (h : p.eval r = p.eval r') : p.selects r = p.selects r' := by
  rw [selects, evaluate, h]
  rfl

end Predicate

/-- Both results are the records at the same positions of the two lists, or the same error. -/
def SamePositions (records records' : List Record) (result result' : Except CursorError (List Record)) :
    Prop :=
  (∃ marks : List Bool, marks.length = records.length ∧ result = .ok (marked marks records) ∧
    result' = .ok (marked marks records')) ∨
  ∃ error, result = .error (.eval error) ∧ result' = .error (.eval error)

namespace SamePositions
variable {result result' : Except CursorError (List Record)}

theorem skip (h : SamePositions records records' result result') :
    SamePositions (r :: records) (r' :: records') result result' := by
  rcases h with ⟨marks, hlength, hr, hr'⟩ | herror
  · exact .inl ⟨false :: marks, congrArg (· + 1) hlength, hr, hr'⟩
  · exact .inr herror

theorem take (h : SamePositions records records' result result') :
    SamePositions (r :: records) (r' :: records') (result.map (r :: ·)) (result'.map (r' :: ·)) := by
  rcases h with ⟨marks, hlength, rfl, rfl⟩ | ⟨error, rfl, rfl⟩
  · exact .inl ⟨true :: marks, congrArg (· + 1) hlength, rfl, rfl⟩
  · exact .inr ⟨error, rfl, rfl⟩

theorem gather {scans : Record → Bool} {verdict : Record → Except EvalError Bool}
    (h : List.Forall₂ (fun r r' => scans r = scans r' ∧ verdict r = verdict r') records records') :
    SamePositions records records' (gather verdict (records.filter scans)).1
      (gather verdict (records'.filter scans)).1 := by
  induction h with
  | nil => exact .inl ⟨[], rfl, rfl, rfl⟩
  | @cons r r' rest rest' hr _ ih =>
    obtain ⟨hscans, hverdict⟩ := hr
    rw [List.filter_cons, List.filter_cons, ← hscans]
    cases scans r with
    | false => exact ih.skip
    | true =>
      simp only [if_true, EntitySearch.gather, ← hverdict]
      cases verdict r with
      | error e =>
        -- Both walks end here, whatever was gathered before.
        exact .inr ⟨e, rfl, rfl⟩
      | ok selected =>
        cases selected with
        | false => exact ih.skip
        | true => exact ih.take

end SamePositions

namespace Search
variable {t : Search} {p : Predicate}

theorem scans_congr (h : r.kind = r'.kind) : t.scans r = t.scans r' := by
  unfold scans
  rw [h]

theorem selects_congr (hp : t.compile s = .ok p) (h : r.LooksLike s r') :
    p.selects r = p.selects r' :=
  Predicate.selects_congr <| p.eval_congr fun _ hx => (exists_query_of_mem_tests hp hx).1.eval_congr h

end Search

namespace Engine
variable {g : Engine} {payload : Json} {p : Predicate}

/-- The search of a payload selects the same positions of two lists of records that look alike one by
one, or fails on both with the same error. -/
theorem run_ignores_hidden (hp : g.compile payload = .ok p) :
    ∃ t, g.resolve payload = .ok t ∧ ∀ records records' : List Record,
      List.Forall₂ (Record.LooksLike g.schema) records records' →
        SamePositions records records' (t.run p records) (t.run p records') := by
  obtain ⟨t, ht, hp⟩ := exists_search_of_compile hp
  refine ⟨t, ht, fun records records' h => ?_⟩
  rw [Search.run_eq, Search.run_eq]
  refine SamePositions.gather (h.imp fun r r' hr => ⟨?_, ?_⟩)
  · exact Search.scans_congr hr.kind
  · exact Search.selects_congr hp hr

/-- Users of a last name. -/
def does : Json := .object [("type", .string "User"), ("last_name", .string "Doe")]

def stored : List Record := [
  ((Record.ofKind "User").set "last_name" (.string "Doe")).set "hashed_password" (.string "x"),
  .ofKind "Company",
  (Record.ofKind "User").set "last_name" (.string "Roe")]

/-- The same as far as it may be searched, with a password left out, one added and an address that is of
another type than declared. -/
def tampered : List Record := [
  (Record.ofKind "User").set "last_name" (.string "Doe"),
  (Record.ofKind "Company").set "address" (.bool true),
  ((Record.ofKind "User").set "last_name" (.string "Roe")).set "hashed_password" (.int 7)]

theorem run_ignores_tampering :
    (usersAndCompanies none).compile does = .ok (.test ⟨"User", "last_name", .string "Doe"⟩) ∧
      List.Forall₂ (Record.LooksLike (usersAndCompanies none).schema) stored tampered ∧
      ∃ t, (usersAndCompanies none).resolve does = .ok t ∧
        SamePositions stored tampered (t.run (.test ⟨"User", "last_name", .string "Doe"⟩) stored)
          (t.run (.test ⟨"User", "last_name", .string "Doe"⟩) tampered) := by
  have hp : (usersAndCompanies none).compile does =
      .ok (.test ⟨"User", "last_name", .string "Doe"⟩) := by
    decide +kernel
  have halike : List.Forall₂ (Record.LooksLike (usersAndCompanies none).schema) stored tampered :=
    .cons ⟨rfl, by decide +kernel⟩ (.cons ⟨rfl, by decide +kernel⟩ (.cons ⟨rfl, by decide +kernel⟩ .nil))
  obtain ⟨t, ht, hrun⟩ := run_ignores_hidden hp
  exact ⟨hp, halike, t, ht, hrun _ _ halike⟩

end Engine

end EntitySearch
