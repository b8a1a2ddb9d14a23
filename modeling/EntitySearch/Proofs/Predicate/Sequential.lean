import EntitySearch.Proofs.Predicate.Completion

/-!
# Boolean laws of evaluation

Double negation, De Morgan's laws and the merging of nested operators hold between values and errors alike, and at any
position in a predicate (`Predicate.evaluate_fill_of_rewrites`). `Truth.andThen` joins two results in the order of
evaluation, with the second one unread if the first is an error or false; it is associative, with true as its unit, and
negation turns it into `Truth.orElse`. A conjunction has the joined results of its operands (`Predicate.eval_and_cons`),
whatever was found before them (`Predicate.evalAll_eq_map`).
-/

namespace EntitySearch

namespace Truth

variable {ε : Type}

/-- The conjunction of two results. The second one counts only if the first does not settle it. -/
def andThen (x y : Except ε Truth) : Except ε Truth :=
  match x with
  | .error e => .error e
  | .ok .false => .ok .false
  | .ok a => y.map a.and

/-- The disjunction of two results. The second one counts only if the first does not settle it. -/
def orElse (x y : Except ε Truth) : Except ε Truth :=
  match x with
  | .error e => .error e
  | .ok .true => .ok .true
  | .ok a => y.map a.or

@[simp] theorem true_andThen (y : Except ε Truth) : andThen (.ok true) y = y := by
  cases y with
  | error e => rfl
  | ok b => exact congrArg _ true_and

@[simp] theorem andThen_true (x : Except ε Truth) : andThen x (.ok true) = x := by
  cases x with
  | error e => rfl
  | ok a => cases a <;> rfl

@[simp] theorem false_orElse (y : Except ε Truth) : orElse (.ok false) y = y := by
  cases y with
  | error e => rfl
  | ok b => exact congrArg _ false_or

@[simp] theorem orElse_false (x : Except ε Truth) : orElse x (.ok false) = x := by
  cases x with
  | error e => rfl
  | ok a => cases a <;> rfl

theorem map_neg_andThen (x y : Except ε Truth) : (andThen x y).map neg = orElse (x.map neg) (y.map neg) := by
  cases x with
  | error e => rfl
  | ok a =>
    cases a with
    | false => rfl
    | unknown | true =>
      cases y with
      | error e => rfl
      | ok b => exact congrArg _ (neg_and _ b)

theorem map_neg_neg (x : Except ε Truth) : (x.map neg).map neg = x := by
  cases x with
  | error e => rfl
  | ok a => exact congrArg _ a.neg_neg

theorem map_neg_orElse (x y : Except ε Truth) : (orElse x y).map neg = andThen (x.map neg) (y.map neg) := by
  rw [← map_neg_neg (andThen _ _), map_neg_andThen, map_neg_neg, map_neg_neg]

theorem andThen_assoc (x y z : Except ε Truth) : andThen (andThen x y) z = andThen x (andThen y z) := by
  cases x with
  | error e => rfl
  | ok a =>
    cases y with
    | error e => cases a <;> rfl
    | ok b =>
      cases z with
      | error e => cases a <;> cases b <;> rfl
      | ok c => cases a <;> cases b <;> cases c <;> rfl

theorem orElse_assoc (x y z : Except ε Truth) : orElse (orElse x y) z = orElse x (orElse y z) := by
  rw [← map_neg_neg (orElse (orElse x y) z), ← map_neg_neg (orElse x (orElse y z))]
  simp only [map_neg_orElse, andThen_assoc]

end Truth

namespace Predicate
variable {r : Record} {p q : Predicate} {ps xs ys zs : List Predicate} {sofar : Truth}

theorem evalAll_eq_map (ps : List Predicate) (hs : sofar ≠ .false) :
    evalAll r sofar ps = (evalAll r .true ps).map sofar.and := by
  induction ps generalizing sofar with
  | nil => exact congrArg Except.ok Truth.and_true.symm
  | cons p ps ih =>
    rw [evalAll, evalAll]
    cases p.eval r with
    | error e => rfl
    | ok a =>
      cases a with
      | false => exact congrArg Except.ok Truth.and_false.symm
      | true => exact ih hs
      | unknown =>
        have hunknown : evalAll r .unknown ps = (evalAll r .true ps).map Truth.unknown.and := ih (by decide)
        show evalAll r .unknown ps = (evalAll r .unknown ps).map sofar.and
        rw [hunknown]
        cases evalAll r .true ps with
        | error e => rfl
        | ok b => exact congrArg Except.ok (Truth.and_unknown_and hs).symm

theorem evalAny_eq_map (ps : List Predicate) (hs : sofar ≠ .true) :
    evalAny r sofar ps = (evalAny r .false ps).map sofar.or := by
  induction ps generalizing sofar with
  | nil => exact congrArg Except.ok Truth.or_false.symm
  | cons p ps ih =>
    rw [evalAny, evalAny]
    cases p.eval r with
    | error e => rfl
    | ok a =>
      cases a with
      | true => exact congrArg Except.ok Truth.or_true.symm
      | false => exact ih hs
      | unknown =>
        have hunknown : evalAny r .unknown ps = (evalAny r .false ps).map Truth.unknown.or := ih (by decide)
        show evalAny r .unknown ps = (evalAny r .unknown ps).map sofar.or
        rw [hunknown]
        cases evalAny r .false ps with
        | error e => rfl
        | ok b => exact congrArg Except.ok (Truth.or_unknown_or hs).symm

theorem eval_not (r : Record) (p : Predicate) : (not p).eval r = (p.eval r).map .neg := rfl

@[simp] theorem eval_and_nil (r : Record) : (and []).eval r = .ok .true := rfl

@[simp] theorem eval_or_nil (r : Record) : (or []).eval r = .ok .false := rfl

theorem eval_and_cons (r : Record) (p : Predicate) (ps : List Predicate) :
    (and (p :: ps)).eval r = Truth.andThen (p.eval r) ((and ps).eval r) := by
  show evalAll r .true (p :: ps) = Truth.andThen (p.eval r) (evalAll r .true ps)
  rw [evalAll]
  cases p.eval r with
  | error e => rfl
  | ok a =>
    cases a with
    | false => rfl
    | true => exact (Truth.true_andThen _).symm
    | unknown => exact evalAll_eq_map ps (by decide)

theorem eval_or_cons (r : Record) (p : Predicate) (ps : List Predicate) :
    (or (p :: ps)).eval r = Truth.orElse (p.eval r) ((or ps).eval r) := by
  show evalAny r .false (p :: ps) = Truth.orElse (p.eval r) (evalAny r .false ps)
  rw [evalAny]
  cases p.eval r with
  | error e => rfl
  | ok a =>
    cases a with
    | true => rfl
    | false => exact (Truth.false_orElse _).symm
    | unknown => exact evalAny_eq_map ps (by decide)

theorem eval_and_append (r : Record) (xs ys : List Predicate) :
    (and (xs ++ ys)).eval r = Truth.andThen ((and xs).eval r) ((and ys).eval r) := by
  induction xs with
  | nil => exact (Truth.true_andThen _).symm
  | cons x xs ih => rw [List.cons_append, eval_and_cons, ih, eval_and_cons, Truth.andThen_assoc]

theorem eval_or_append (r : Record) (xs ys : List Predicate) :
    (or (xs ++ ys)).eval r = Truth.orElse ((or xs).eval r) ((or ys).eval r) := by
  induction xs with
  | nil => exact (Truth.false_orElse _).symm
  | cons x xs ih => rw [List.cons_append, eval_or_cons, ih, eval_or_cons, Truth.orElse_assoc]

/-! ### Rewriting -/

theorem eval_not_not (r : Record) (p : Predicate) : (not (not p)).eval r = p.eval r :=
  Truth.map_neg_neg (p.eval r)

theorem eval_not_and (r : Record) (ps : List Predicate) :
    (not (and ps)).eval r = (or (ps.map not)).eval r := by
  induction ps with
  | nil => rfl
  | cons p ps ih =>
    rw [eval_not] at ih
    rw [eval_not, eval_and_cons, Truth.map_neg_andThen, ih, List.map_cons, eval_or_cons, eval_not]

theorem eval_not_or (r : Record) (ps : List Predicate) :
    (not (or ps)).eval r = (and (ps.map not)).eval r := by
  induction ps with
  | nil => rfl
  | cons p ps ih =>
    rw [eval_not] at ih
    rw [eval_not, eval_or_cons, Truth.map_neg_orElse, ih, List.map_cons, eval_and_cons, eval_not]

theorem eval_and_and (r : Record) (xs ys zs : List Predicate) :
    (and (xs ++ [and ys] ++ zs)).eval r = (and (xs ++ ys ++ zs)).eval r := by
  simp only [eval_and_append, eval_and_cons, eval_and_nil, Truth.andThen_true]

theorem eval_or_or (r : Record) (xs ys zs : List Predicate) :
    (or (xs ++ [or ys] ++ zs)).eval r = (or (xs ++ ys ++ zs)).eval r := by
  simp only [eval_or_append, eval_or_cons, eval_or_nil, Truth.orElse_false]

/-- The Boolean laws, read from left to right. -/
inductive Rewrites : Predicate → Predicate → Prop
  | notNot (p : Predicate) : Rewrites (not (not p)) p
  | notAnd (ps : List Predicate) : Rewrites (not (and ps)) (or (ps.map not))
  | notOr (ps : List Predicate) : Rewrites (not (or ps)) (and (ps.map not))
  | andAnd (xs ys zs : List Predicate) : Rewrites (and (xs ++ [and ys] ++ zs)) (and (xs ++ ys ++ zs))
  | orOr (xs ys zs : List Predicate) : Rewrites (or (xs ++ [or ys] ++ zs)) (or (xs ++ ys ++ zs))

/-- A predicate with a hole at some position. -/
inductive Context
  | hole
  | not (operand : Context)
  | and (before : List Predicate) (operand : Context) (after : List Predicate)
  | or (before : List Predicate) (operand : Context) (after : List Predicate)

/-- Puts a predicate into the hole. -/
def Context.fill (p : Predicate) : Context → Predicate
  | hole => p
  | not operand => .not (operand.fill p)
  | and before operand after => .and (before ++ [operand.fill p] ++ after)
  | or before operand after => .or (before ++ [operand.fill p] ++ after)

theorem Rewrites.eval_eq (h : p.Rewrites q) (r : Record) : p.eval r = q.eval r := by
  cases h with
  | notNot => exact eval_not_not r q
  | notAnd ps => exact eval_not_and r ps
  | notOr ps => exact eval_not_or r ps
  | andAnd xs ys zs => exact eval_and_and r xs ys zs
  | orOr xs ys zs => exact eval_or_or r xs ys zs

/-- What is in the hole counts only by its result. -/
theorem Context.eval_fill_congr (h : p.eval r = q.eval r) (c : Context) :
    (c.fill p).eval r = (c.fill q).eval r := by
  induction c with
  | hole => exact h
  | not operand ih => exact congrArg (Except.map Truth.neg) ih
  | and before operand after ih => simp only [fill, eval_and_append, eval_and_cons, ih]
  | or before operand after ih => simp only [fill, eval_or_append, eval_or_cons, ih]

/-- A law may be applied at any position: the predicate has the value that it had before on every record, or
fails on it with the same error. -/
theorem evaluate_fill_of_rewrites (h : p.Rewrites q) (c : Context) (r : Record) :
    (c.fill p).evaluate r = (c.fill q).evaluate r := by
  have heval : (c.fill p).eval r = (c.fill q).eval r := c.eval_fill_congr (h.eval_eq r)
  rw [evaluate, evaluate, heval]

/-- Of the first user the last name is unknown, and the test of a company is an error, which is met as well
once the negation is inside. -/
theorem evaluate_fill_firstUser :
    (not (and [named "Doe", acme])).Rewrites (or [not (named "Doe"), not acme]) ∧
      (and [numbered 1, not (and [named "Doe", acme])]).evaluate firstUser =
        .error (.otherKind "Company" "User") ∧
      (and [numbered 1, or [not (named "Doe"), not acme]]).evaluate firstUser =
        .error (.otherKind "Company" "User") := by
  have hlaw : (not (and [named "Doe", acme])).Rewrites (or [not (named "Doe"), not acme]) := .notAnd _
  have herror : (and [numbered 1, not (and [named "Doe", acme])]).evaluate firstUser =
      .error (.otherKind "Company" "User") := by
    decide
  have hsame := evaluate_fill_of_rewrites hlaw (.and [numbered 1] .hole []) firstUser
  exact ⟨hlaw, herror, hsame.symm.trans herror⟩

end Predicate

end EntitySearch
