import EntitySearch.Proofs.Predicate.Sequential
import EntitySearch.Proofs.Search.Tests
import Mathlib.Data.List.Forall2

/-!
# Operators with less than two operands

`Search.plain` translates a search node by node, with an operator of the predicate for each operator of the search. The
compiler leaves operators out where there are less than two operands, but evaluation cannot tell
(`Search.evaluate_plain`): an operand counts only by what it evaluates to (`Predicate.EvalAlike`), and a single one
gives what the operator would (`Predicate.eval_conjunction`).
-/

namespace EntitySearch

namespace Predicate
variable {r : Record} {ps qs : List Predicate}

/-- The operator that is left out of a single operand would have passed its value and its error on. -/
theorem eval_conjunction (r : Record) (ps : List Predicate) : (conjunction ps).eval r = (and ps).eval r := by
  match ps with
  | [] => rfl
  | [p] => rw [eval_and_cons, eval_and_nil, Truth.andThen_true, conjunction]
  | _ :: _ :: _ => rfl

theorem eval_disjunction (r : Record) (ps : List Predicate) : (disjunction ps).eval r = (or ps).eval r := by
  match ps with
  | [] => rfl
  | [p] => rw [eval_or_cons, eval_or_nil, Truth.orElse_false, disjunction]
  | _ :: _ :: _ => rfl

/-- The operands one by one evaluate alike. -/
def EvalAlike (r : Record) (ps qs : List Predicate) : Prop :=
  List.Forall₂ (fun p q => p.eval r = q.eval r) ps qs

theorem EvalAlike.evalAll (h : EvalAlike r ps qs) (sofar : Truth) :
    evalAll r sofar ps = evalAll r sofar qs := by
  induction h generalizing sofar with
  | nil => rfl
  | cons hp _ ih => rw [Predicate.evalAll, Predicate.evalAll, hp, ih, ih]

theorem EvalAlike.evalAny (h : EvalAlike r ps qs) (sofar : Truth) :
    evalAny r sofar ps = evalAny r sofar qs := by
  induction h generalizing sofar with
  | nil => rfl
  | cons hp _ ih => rw [Predicate.evalAny, Predicate.evalAny, hp, ih, ih]

end Predicate

namespace Search
variable {s : Schema} {r : Record}

mutual

/-- The predicate with one operator for each operator of the search and one conjunction for each query. -/
def plain (s : Schema) : Search → Predicate
  | not child => .not (child.plain s)
  | and children => .and (plainList s children)
  | or children => .or (plainList s children)
  | entity query => .and ((query.testsIn s).map .test)

def plainList (s : Schema) : List Search → List Predicate
  | [] => []
  | t :: ts => t.plain s :: plainList s ts

end

mutual

theorem eval_plain {p : Predicate} (t : Search) (h : t.compile s = .ok p) :
    (t.plain s).eval r = p.eval r := by
  cases t with
  | not child =>
    obtain ⟨p, hp, rfl⟩ := map_eq_ok_iff.1 h
    exact congrArg (Except.map Truth.neg) (eval_plain child hp)
  | and ts =>
    obtain ⟨ps, hps, rfl⟩ := map_eq_ok_iff.1 h
    rw [Predicate.eval_conjunction]
    exact (evalAlike_plainList ts hps).evalAll .true
  | or ts =>
    obtain ⟨ps, hps, rfl⟩ := map_eq_ok_iff.1 h
    rw [Predicate.eval_disjunction]
    exact (evalAlike_plainList ts hps).evalAny .false
  | entity q =>
    obtain ⟨-, e, he, rfl⟩ := EntityQuery.compile_eq_ok_iff.1 h
    rw [Predicate.eval_conjunction, plain, EntityQuery.testsIn, he]
    rfl

theorem evalAlike_plainList {ps : List Predicate} (ts : List Search) (h : compileList s ts = .ok ps) :
    Predicate.EvalAlike r (plainList s ts) ps := by
  cases ts with
  | nil => cases h; exact .nil
  | cons t ts =>
    rw [compileList] at h
    split at h
    · cases h
    next p hp =>
    obtain ⟨ps, hps, rfl⟩ := map_eq_ok_iff.1 h
    exact .cons (eval_plain t hp) (evalAlike_plainList ts hps)

end

/-- A compiled search has the value of the plain translation on every record, or fails on it with the
same error. -/
theorem evaluate_plain {t : Search} {p : Predicate} (h : t.compile s = .ok p) (r : Record) :
    p.evaluate r = (t.plain s).evaluate r := by
  rw [Predicate.evaluate, Predicate.evaluate, eval_plain t h]

/-- Neither user 7 nor a company. -/
def neitherSevenNorCompany : Search :=
  .not (.or [.and [.entity ((EntityQuery.ofKind "User").set "id" (.int 7))], .entity (.ofKind "Company")])

/-- A user without a number is unknown to the first operand, but every record is true of the second; a
company does not get there. -/
theorem evaluate_plain_neitherSevenNorCompany :
    neitherSevenNorCompany.compile .usersAndCompanies =
        .ok (.not (.or [.test ⟨"User", "id", .int 7⟩, .always])) ∧
      neitherSevenNorCompany.plain .usersAndCompanies =
        .not (.or [.and [.and [.test ⟨"User", "id", .int 7⟩]], .and []]) ∧
      (neitherSevenNorCompany.plain .usersAndCompanies).evaluate (.ofKind "User") = .ok (.bool false) ∧
      (neitherSevenNorCompany.plain .usersAndCompanies).evaluate (.ofKind "Company") =
        .error (.otherKind "User" "Company") := by
  have h : neitherSevenNorCompany.compile .usersAndCompanies =
      .ok (.not (.or [.test ⟨"User", "id", .int 7⟩, .always])) := by
    decide
  refine ⟨h, by decide, ?_, ?_⟩
  · exact (evaluate_plain h (.ofKind "User")).symm.trans (by decide)
  · exact (evaluate_plain h (.ofKind "Company")).symm.trans (by decide)

end Search

end EntitySearch
