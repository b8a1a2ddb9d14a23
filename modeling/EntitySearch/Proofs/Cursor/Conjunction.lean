import EntitySearch.Proofs.Cursor.Calls
import EntitySearch.Proofs.Search.Collapse

/-!
# A stack of filters and a conjunction

A stack with one filter for each of some predicates refines a single filter for their conjunction
(`Cursor.drain_stack_of_drain_conjunction`). A filter hides from those above it every record of which its predicate
is not true, while a conjunction looks at the operands behind one that is unknown and may fail on them. What a value
of a conjunction says of the classes of a stack is `Predicate.classify_of_eval_and`, by induction on the operands.
-/

namespace EntitySearch

theorem gather_congr {verdict verdict' : Record → Except EvalError Bool} {records : List Record}
    (h : ∀ r ∈ records, verdict r = verdict' r) : gather verdict records = gather verdict' records := by
  induction records with
  | nil => rfl
  | cons r rest ih =>
    obtain ⟨hr, h⟩ := List.forall_mem_cons.1 h
    rw [gather, gather, hr, ih h]

namespace Predicate
variable {r : Record} {p : Predicate} {ps ps' : List Predicate} {truth : Truth}

theorem classify_cons (p : Predicate) (ps : List Predicate) (r : Record) :
    classify (p :: ps) r = match p.eval r with
      | .error e => .error e
      | .ok .true => classify ps r
      | .ok _ => .ok false := by
  rw [classify, evaluate]
  cases p.eval r with
  | error e => rfl
  | ok truth => cases truth <;> rfl

theorem classify_singleton (p : Predicate) : classify [p] = p.selects := by
  funext r
  rw [classify_cons, selects, evaluate]
  cases p.eval r with
  | error e => rfl
  | ok truth => cases truth <;> rfl

/-- Where the conjunction has a value, no filter that is reached fails, and all of them let pass what the
conjunction is true of. -/
theorem classify_of_eval_and (h : (and ps).eval r = .ok truth) :
    classify ps r = .ok (decide (truth = .true)) := by
  induction ps generalizing truth with
  | nil =>
    cases h
    rfl
  | cons p ps ih =>
    rw [eval_and_cons] at h
    rw [classify_cons]
    cases hp : p.eval r with
    | error e =>
      rw [hp] at h
      cases h
    | ok a =>
      rw [hp] at h
      cases a with
      | false =>
        cases h
        rfl
      | unknown =>
        -- The stack stops here; the conjunction went on, but cannot become true any more.
        obtain ⟨b, -, rfl⟩ := map_eq_ok_iff.1 h
        cases b <;> rfl
      | true =>
        rw [Truth.true_andThen] at h
        exact ih h

theorem classify_of_selects_conjunction {b : Bool} (h : (conjunction ps).selects r = .ok b) :
    classify ps r = .ok b := by
  obtain ⟨value, hvalue, rfl⟩ := map_eq_ok_iff.1 h
  obtain ⟨truth, htruth, rfl⟩ := evaluate_eq_ok_iff.1 hvalue
  rw [eval_conjunction] at htruth
  rw [classify_of_eval_and htruth]
  cases truth <;> rfl

-- The conjunction fails on an operand that the stack does not get to.
example : (conjunction [named "Doe", acme]).selects (.ofKind "User") = .error (.otherKind "Company" "User") ∧
    classify [named "Doe", acme] (.ofKind "User") = .ok false := by
  decide

theorem exists_eval_and (h : ∀ p ∈ ps, ∃ a, p.eval r = .ok a) :
    ∃ truth, (and ps).eval r = .ok truth ∧ (truth = .true ↔ ∀ p ∈ ps, p.eval r = .ok .true) := by
  induction ps with
  | nil => exact ⟨.true, rfl, by simp⟩
  | cons p ps ih =>
    obtain ⟨⟨a, ha⟩, h⟩ := List.forall_mem_cons.1 h
    obtain ⟨b, hb, hiff⟩ := ih h
    rw [eval_and_cons, ha, hb]
    refine ⟨a.and b, ?_, ?_⟩
    · cases a <;> rfl
    · rw [Truth.and_eq_true_iff, hiff, List.forall_mem_cons, ha]
      simp

theorem selects_conjunction (h : ∀ p ∈ ps, ∃ value, p.evaluate r = .ok value) :
    (conjunction ps).selects r = .ok (decide (∀ p ∈ ps, p.evaluate r = .ok (.bool true))) := by
  have heval : ∀ p ∈ ps, ∃ a, p.eval r = .ok a := fun p hp =>
    let ⟨_, hvalue⟩ := h p hp
    let ⟨a, ha, _⟩ := evaluate_eq_ok_iff.1 hvalue
    ⟨a, ha⟩
  obtain ⟨truth, htruth, hiff⟩ := exists_eval_and heval
  rw [selects_of_eval ((eval_conjunction r ps).trans htruth)]
  have hbool (p : Predicate) : p.evaluate r = .ok (.bool true) ↔ p.eval r = .ok .true := by
    rw [evaluate_eq_ok_iff]
    constructor
    · rintro ⟨a, ha, h⟩
      obtain rfl : a = .true := Truth.toScalar_inj.1 h
      exact ha
    · intro h
      exact ⟨.true, h, rfl⟩
  simp only [hiff, hbool]

end Predicate

namespace Cursor
variable {records : List Record} {kind : Option String} {ps : List Predicate}

theorem drain_ofPredicates (records : List Record) (kind : Option String) (ps : List Predicate) :
    (ofPredicates records kind ps).drain.1 =
      (gather (Predicate.classify ps) (recordsOfKind records kind)).1 := by
  rw [(tracks_ofPredicates records kind ps).drain_eq, Option.getD_none]

theorem drain_filter (records : List Record) (kind : Option String) (p : Predicate) :
    ((ofRecords records kind).filter p).drain.1 = (gather p.selects (recordsOfKind records kind)).1 := by
  rw [← Predicate.classify_singleton, ← drain_ofPredicates]
  rfl

/-- Whatever a single filter for the conjunction of some predicates gives, a stack of filters for the
predicates gives as well. If no predicate fails on a record of the scan, then both give the records that all
predicates are true of, in whatever order the predicates are taken. -/
theorem drain_stack_of_drain_conjunction (records : List Record) (kind : Option String)
    (ps : List Predicate) :
    (∀ given, ((ofRecords records kind).filter (.conjunction ps)).drain.1 = .ok given →
      (ofPredicates records kind ps).drain.1 = .ok given) ∧
    ((∀ p ∈ ps, ∀ r ∈ recordsOfKind records kind, ∃ value, p.evaluate r = .ok value) →
      ∀ ps', ps.Perm ps' →
        ((ofRecords records kind).filter (.conjunction ps')).drain.1 =
          .ok ((recordsOfKind records kind).filter fun r => ∀ p ∈ ps, p.evaluate r = .ok (.bool true)) ∧
        (ofPredicates records kind ps').drain.1 =
          .ok ((recordsOfKind records kind).filter fun r => ∀ p ∈ ps, p.evaluate r = .ok (.bool true))) := by
  have hrefines (ps : List Predicate) (given : List Record)
      (h : ((ofRecords records kind).filter (.conjunction ps)).drain.1 = .ok given) :
      (ofPredicates records kind ps).drain.1 = .ok given := by
    rw [drain_filter] at h
    rw [drain_ofPredicates, gather_congr fun r hr => ?_, h]
    have hr := isOk_of_gather_eq_ok h r hr
    cases hb : (Predicate.conjunction ps).selects r with
    | error e =>
      rw [hb] at hr
      cases hr
    | ok b => exact Predicate.classify_of_selects_conjunction hb
  refine ⟨hrefines ps, fun hok ps' hperm => ?_⟩
  have hsingle : ((ofRecords records kind).filter (.conjunction ps')).drain.1 =
      .ok ((recordsOfKind records kind).filter fun r => ∀ p ∈ ps, p.evaluate r = .ok (.bool true)) := by
    rw [drain_filter, gather_of_ok fun r hr => ?_]
    have hselects := Predicate.selects_conjunction fun p hp => hok p (hperm.mem_iff.2 hp) r hr
    simpa only [hperm.mem_iff] using hselects
  exact ⟨hsingle, hrefines ps' _ hsingle⟩

/-- Of the users who are called Doe, those that have a first name other than Jane. It does not matter which
filter is the inner one. -/
theorem drain_doesButJane :
    (∀ p ∈ doesButJane, ∀ r ∈ recordsOfKind staff (some "User"), ∃ value, p.evaluate r = .ok value) ∧
      doesButJane.Perm doesButJane.reverse ∧ ∃ given,
        given = [
          ((Record.ofKind "User").set "last_name" (.string "Doe")).set "first_name" (.string "John"),
          ((Record.ofKind "User").set "last_name" (.string "Doe")).set "first_name" (.string "Jack")] ∧
        ((ofRecords staff (some "User")).filter (.conjunction doesButJane)).drain.1 = .ok given ∧
        (ofPredicates staff (some "User") doesButJane).drain.1 = .ok given ∧
        (ofPredicates staff (some "User") doesButJane.reverse).drain.1 = .ok given := by
  have herrors : ∀ p ∈ doesButJane, ∀ r ∈ recordsOfKind staff (some "User"),
      errorOf? (p.evaluate r) = none := by
    decide
  have hok : ∀ p ∈ doesButJane, ∀ r ∈ recordsOfKind staff (some "User"), ∃ value, p.evaluate r = .ok value :=
    fun p hp r hr => errorOf?_eq_none_iff.1 (herrors p hp r hr)
  have hperm : doesButJane.Perm doesButJane.reverse := (List.reverse_perm _).symm
  obtain ⟨hrefines, horder⟩ := drain_stack_of_drain_conjunction staff (some "User") doesButJane
  obtain ⟨hsingle, -⟩ := horder hok _ (.refl _)
  exact ⟨hok, hperm, _, by decide +kernel, hsingle, hrefines _ hsingle, (horder hok _ hperm).2⟩

end Cursor

end EntitySearch
