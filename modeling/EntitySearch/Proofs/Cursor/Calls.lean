import EntitySearch.Proofs.Cursor.Stack
import Mathlib.Data.List.Forall2

/-!
# Calls on a cursor

A cursor may be started, asked for a record and drained in any order and as often as one likes. It behaves as a
single walk over the records of its scan by their classes (`Walk.step`): `Cursor.Tracks` ties the layers to the
records that are left to the walk, one call keeps it (`Tracks.call`), and so does any sequence of calls
(`Call.run_simulates`). What the walk replies accounts for the records that it consumes (`Reply.Accounts`).
-/

namespace EntitySearch

inductive Call
  | start
  | next
  | drain
deriving DecidableEq

inductive Reply
  | started
  | next (answer : Answer)
  | drained (result : Except CursorError (List Record))
deriving DecidableEq

namespace Call
variable {σ τ : Type}

/-- The replies of a machine to calls that follow each other, and its state after them. -/
def run (serve : σ → Call → Reply × σ) (s : σ) : List Call → List Reply × σ
  | [] => ([], s)
  | call :: rest =>
    let (reply, s) := serve s call
    let (replies, s) := run serve s rest
    (reply :: replies, s)

/-- The reply where no record is left. -/
def atEnd : Call → Reply
  | start => .started
  | next => .next (.ok none)
  | drain => .drained (.ok [])

theorem run_cons (serve : σ → Call → Reply × σ) (s : σ) (call : Call) (rest : List Call) :
    run serve s (call :: rest) =
      ((serve s call).1 :: (run serve (serve s call).2 rest).1, (run serve (serve s call).2 rest).2) :=
  rfl

/-- Machines that reply the same step by step reply the same to any sequence of calls. -/
theorem run_simulates {f : σ → Call → Reply × σ} {g : τ → Call → Reply × τ}
    {R : σ → τ → Prop}
    (hstep : ∀ s t call, R s t → (f s call).1 = (g t call).1 ∧ R (f s call).2 (g t call).2)
    (calls : List Call) {s : σ} {t : τ} (h : R s t) :
    (run f s calls).1 = (run g t calls).1 ∧ R (run f s calls).2 (run g t calls).2 := by
  induction calls generalizing s t with
  | nil => exact ⟨rfl, h⟩
  | cons call rest ih =>
    obtain ⟨hreply, h⟩ := hstep s t call h
    obtain ⟨hreplies, h⟩ := ih h
    rw [run_cons, run_cons]
    exact ⟨congrArg₂ List.cons hreply hreplies, h⟩

end Call

namespace Cursor

def call (c : Cursor) : Call → Reply × Cursor
  | .start => (.started, c.start)
  | .next => (.next c.next.1, c.next.2)
  | .drain => (.drained c.drain.1, c.drain.2)

def calls (c : Cursor) (calls : List Call) : List Reply × Cursor := Call.run call c calls

/-- A scan under one filter for each of the predicates, the innermost first. -/
def ofPredicates (records : List Record) (kind : Option String) (predicates : List Predicate) : Cursor :=
  predicates.foldl filter (ofRecords records kind)

end Cursor

/-- What becomes of a record under predicates, the innermost first: the first one that fails or is not
true decides. -/
def Predicate.classify : List Predicate → Record → Except EvalError Bool
  | [], _ => .ok true
  | p :: rest, r => match p.evaluate r with
    | .error e => .error e
    | .ok (.bool true) => classify rest r
    | .ok _ => .ok false

def recordsOfKind (records : List Record) (kind : Option String) : List Record :=
  records.filter fun r => ∀ k ∈ kind, r.kind = k

namespace Walk

/-- One call on a walk over the records of a scan. The state is what is left of them, once the walk has
begun. -/
def step (verdict : Record → Except EvalError Bool) (scanned : List Record) (left : Option (List Record)) :
    Call → Reply × Option (List Record)
  | .start => (.started, some (left.getD scanned))
  | .next => match left with
    | none => (.next (.error .notStarted), none)
    | some records => (.next (advance verdict records).1, some (advance verdict records).2)
  | .drain => (.drained (gather verdict (left.getD scanned)).1, some (gather verdict (left.getD scanned)).2)

/-- The replies of a walk that has not begun. -/
def replies (verdict : Record → Except EvalError Bool) (scanned : List Record) (calls : List Call) :
    List Reply :=
  (Call.run (step verdict scanned) none calls).1

end Walk

/-- What becomes of a record that a call consumes. -/
inductive Fate
  | given
  | skipped
  | failed
  /-- It was collected, but a later record failed. -/
  | discarded
deriving DecidableEq

namespace Reply

/-- The records that are handed out. -/
def records : Reply → List Record
  | next (.ok (some r)) => [r]
  | drained (.ok rs) => rs
  | _ => []

def error? : Reply → Option CursorError
  | next (.error e) | drained (.error e) => some e
  | _ => none

/-- What has to be so for a record to meet with a fate in a call. -/
def Explains (verdict : Record → Except EvalError Bool) (reply : Reply) (r : Record) : Fate → Prop
  | .given => verdict r = .ok true
  | .skipped => verdict r = .ok false
  | .failed => ∃ e, verdict r = .error e ∧ reply.error? = some (.eval e)
  | .discarded => verdict r = .ok true ∧ ∃ error, reply = .drained (.error error)

/-- The records that a call consumes meet with their fates, and exactly those that are given are handed
out, in their order. -/
structure Accounts (verdict : Record → Except EvalError Bool) (reply : Reply)
    (consumed : List (Record × Fate)) : Prop where
  given : (consumed.filter (·.2 = .given)).map Prod.fst = reply.records
  explained : ∀ x ∈ consumed, reply.Explains verdict x.1 x.2

end Reply

section
variable {verdict : Record → Except EvalError Bool} {records : List Record} {reply : Reply}
  {consumed : List (Record × Fate)} {r : Record}

namespace Reply.Accounts

theorem nil (h : reply.records = []) : reply.Accounts verdict [] := ⟨h.symm, nofun⟩

theorem cons {fate : Fate} (h : reply.Accounts verdict consumed) (hfate : fate ≠ .given)
    (hr : reply.Explains verdict r fate) : reply.Accounts verdict ((r, fate) :: consumed) where
  given := by rw [List.filter_cons_of_neg (by simpa using hfate), h.given]
  explained := List.forall_mem_cons.2 ⟨hr, h.explained⟩

theorem failed {e : EvalError} (hr : verdict r = .error e) (hrecords : reply.records = [])
    (herror : reply.error? = some (.eval e)) : reply.Accounts verdict [(r, .failed)] :=
  (nil hrecords).cons (by decide) ⟨e, hr, herror⟩

theorem drained {result : Except CursorError (List Record)}
    (h : (Reply.drained result).Accounts verdict consumed) (hr : verdict r = .ok true) :
    ∃ fate, (Reply.drained (result.map (r :: ·))).Accounts verdict ((r, fate) :: consumed) := by
  cases result with
  | error error => exact ⟨.discarded, h.cons (by decide) ⟨hr, error, rfl⟩⟩
  | ok rs =>
    refine ⟨.given, ?_, List.forall_mem_cons.2 ⟨hr, fun x hx => ?_⟩⟩
    · rw [List.filter_cons_of_pos (by simp), List.map_cons, h.given]
      rfl
    · -- A draining that succeeds has no error, so neither has one with another result.
      have hx := h.explained x hx
      obtain ⟨y, fate⟩ := x
      cases fate with
      | given => exact hx
      | skipped => exact hx
      | failed =>
        obtain ⟨e, -, herror⟩ := hx
        cases herror
      | discarded =>
        obtain ⟨-, error, herror⟩ := hx
        cases herror

end Reply.Accounts

theorem map_given_flatten {replies : List Reply} {consumed : List (List (Record × Fate))}
    (h : List.Forall₂ (Reply.Accounts verdict) replies consumed) :
    (consumed.flatten.filter (·.2 = .given)).map Prod.fst = replies.flatMap Reply.records := by
  induction h with
  | nil => rfl
  | cons hfirst _ ih =>
    rw [List.flatten_cons, List.filter_append, List.map_append, hfirst.given, ih, List.flatMap_cons]

theorem exists_accounts_advance (records : List Record) :
    ∃ consumed, (Reply.next (advance verdict records).1).Accounts verdict consumed ∧
      consumed.map Prod.fst ++ (advance verdict records).2 = records := by
  induction records with
  | nil => exact ⟨[], .nil rfl, rfl⟩
  | cons r rest ih =>
    rw [advance]
    cases hr : verdict r with
    | error e => exact ⟨[(r, .failed)], .failed hr rfl rfl, rfl⟩
    | ok b =>
      cases b with
      | true =>
        refine ⟨[(r, .given)], ⟨rfl, fun x hx => ?_⟩, rfl⟩
        obtain rfl := List.mem_singleton.1 hx
        exact hr
      | false =>
        obtain ⟨consumed, h, hrest⟩ := ih
        exact ⟨(r, .skipped) :: consumed, h.cons (by decide) hr, congrArg (r :: ·) hrest⟩

theorem exists_accounts_gather (records : List Record) :
    ∃ consumed, (Reply.drained (gather verdict records).1).Accounts verdict consumed ∧
      consumed.map Prod.fst ++ (gather verdict records).2 = records := by
  induction records with
  | nil => exact ⟨[], .nil rfl, rfl⟩
  | cons r rest ih =>
    obtain ⟨consumed, h, hrest⟩ := ih
    rw [gather]
    cases hr : verdict r with
    | error e => exact ⟨[(r, .failed)], .failed hr rfl rfl, rfl⟩
    | ok b =>
      cases b with
      | true =>
        obtain ⟨fate, h⟩ := h.drained hr
        exact ⟨(r, fate) :: consumed, h, congrArg (r :: ·) hrest⟩
      | false => exact ⟨(r, .skipped) :: consumed, h.cons (by decide) hr, congrArg (r :: ·) hrest⟩

/-- A walk says that no record is left iff it would skip all that are left, and it has then done so. -/
theorem advance_eq_none_iff :
    (advance verdict records).1 = .ok none ↔ ∀ r ∈ records, verdict r = .ok false := by
  induction records with
  | nil => simp [advance]
  | cons r rest ih =>
    rw [advance, List.forall_mem_cons]
    cases hr : verdict r with
    | error e => simp
    | ok b => cases b <;> simp [ih]

theorem advance_of_skipped (h : ∀ r ∈ records, verdict r = .ok false) :
    advance verdict records = (.ok none, []) := by
  induction records with
  | nil => rfl
  | cons r rest ih =>
    obtain ⟨hr, h⟩ := List.forall_mem_cons.1 h
    rw [advance, hr]
    exact ih h

end

namespace Walk
variable {verdict : Record → Except EvalError Bool} {scanned : List Record} {left : Option (List Record)}

theorem exists_accounts_step (verdict : Record → Except EvalError Bool) (scanned : List Record)
    (left : Option (List Record)) (call : Call) :
    ∃ consumed, (step verdict scanned left call).1.Accounts verdict consumed ∧
      consumed.map Prod.fst ++ (step verdict scanned left call).2.getD scanned = left.getD scanned := by
  cases call with
  | start => exact ⟨[], .nil rfl, rfl⟩
  | next =>
    cases left with
    | none => exact ⟨[], .nil rfl, rfl⟩
    | some records => exact exists_accounts_advance records
  | drain => exact exists_accounts_gather (left.getD scanned)

/-- What the calls of a walk consume and what they leave is what there was, each record in its place. -/
theorem exists_accounts_run (verdict : Record → Except EvalError Bool) (scanned : List Record)
    (calls : List Call) (left : Option (List Record)) : ∃ consumed,
      List.Forall₂ (Reply.Accounts verdict) (Call.run (step verdict scanned) left calls).1 consumed ∧
      consumed.flatten.map Prod.fst ++ (Call.run (step verdict scanned) left calls).2.getD scanned =
        left.getD scanned := by
  induction calls generalizing left with
  | nil => exact ⟨[], .nil, rfl⟩
  | cons call rest ih =>
    obtain ⟨first, hfirst, hleft⟩ := exists_accounts_step verdict scanned left call
    obtain ⟨consumed, hrest, hlast⟩ := ih (step verdict scanned left call).2
    rw [Call.run_cons]
    refine ⟨first :: consumed, .cons hfirst hrest, ?_⟩
    rw [List.flatten_cons, List.map_append, List.append_assoc, hlast, hleft]

theorem run_of_end (calls : List Call) :
    (Call.run (step verdict scanned) (some []) calls).1 = calls.map Call.atEnd := by
  induction calls with
  | nil => rfl
  | cons call rest ih =>
    have hstep : step verdict scanned (some []) call = (call.atEnd, some []) := by
      cases call <;> rfl
    rw [Call.run_cons, hstep, List.map_cons, ih]

end Walk

namespace Filter
variable {r : Record}

theorem verdict_append (above below : List Filter) (r : Record) :
    verdict (above ++ below) r = match verdict below r with
      | .ok true => verdict above r
      | skipped => skipped := by
  induction above with
  | nil =>
    show verdict below r = _
    split <;> simp_all [verdict]
  | cons f above ih =>
    rw [List.cons_append, verdict, ih]
    cases verdict below r with
    | error e => rfl
    | ok b => cases b <;> rfl

/-- A stack takes its predicates from the innermost one on. -/
theorem verdict_eq_classify (predicates : List Predicate) :
    verdict (predicates.map fun p => ⟨p, false⟩).reverse = Predicate.classify predicates := by
  funext r
  induction predicates with
  | nil => rfl
  | cons p rest ih =>
    rw [List.map_cons, List.reverse_cons, verdict_append, ih, Predicate.classify]
    show (match p.selects r with | .ok true => _ | skipped => skipped) = _
    rw [Predicate.selects]
    cases p.evaluate r with
    | error e => rfl
    | ok value =>
      cases value with
      | bool b => cases b <;> rfl
      | _ => rfl

end Filter

namespace Cursor
variable {c : Cursor} {verdict : Record → Except EvalError Bool} {scanned : List Record}
  {left : Option (List Record)}

/-- All layers of the cursor agree on how far it is: none has been started and nothing is left yet, or
all have been and the scan holds what is left. -/
structure Tracks (verdict : Record → Except EvalError Bool) (scanned : List Record) (c : Cursor)
    (left : Option (List Record)) : Prop where
  verdict_eq : Filter.verdict c.filters = verdict
  scanned_eq : c.scan.records.filter c.scan.admits = scanned
  pending : c.scan.pending = left
  started : ∀ f ∈ c.filters, f.started = left.isSome

namespace Tracks

theorem fresh (h : Tracks verdict scanned c none) : c.Fresh := ⟨h.pending, h.started⟩

theorem withPending {records : List Record} (h : Tracks verdict scanned c (some records))
    (rest : List Record) :
    Tracks verdict scanned { c with scan := c.scan.withPending rest } (some rest) :=
  ⟨h.verdict_eq, h.scanned_eq, rfl, h.started⟩

theorem scan_eq {records : List Record} (h : Tracks verdict scanned c (some records)) :
    c.scan = c.scan.withPending records := by
  rw [Scan.withPending, ← h.pending]

theorem follows {records : List Record} (h : Tracks verdict scanned c (some records)) :
    c.source.Follows verdict :=
  h.verdict_eq ▸ Source.follows_ofFilters h.started

theorem start (h : Tracks verdict scanned c left) :
    Tracks verdict scanned c.start (some (left.getD scanned)) := by
  cases left with
  | none =>
    rw [h.fresh.start_eq]
    refine ⟨?_, h.scanned_eq, congrArg some h.scanned_eq, by simp⟩
    rw [Filter.verdict_map_started, h.verdict_eq]
  | some records =>
    have hstart : startFilters c.filters c.scan = (c.filters, c.scan) := by
      cases hf : c.filters with
      | nil => simp [startFilters, Scan.start, h.pending]
      | cons f below =>
        have : f.started = true := h.started f (hf ▸ .head _)
        rw [startFilters, if_pos this]
    simp only [Cursor.start, hstart]
    exact h

theorem next_of_none (h : Tracks verdict scanned c none) : c.next = (.error .notStarted, c) := by
  have hask : c.source.ask c.scan = (.error .notStarted, c.scan) := by
    unfold source
    cases hf : c.filters with
    | nil =>
      show c.scan.next = _
      rw [Scan.next, h.pending]
    | cons f below =>
      have : ¬ f.started := by simp [h.started f (hf ▸ .head _)]
      exact if_neg this
  rw [next, hask]

theorem next_eq {records : List Record} (h : Tracks verdict scanned c (some records)) :
    c.next = ((advance verdict records).1,
      { c with scan := c.scan.withPending (advance verdict records).2 }) := by
  have hask := h.follows c.scan records
  rw [← h.scan_eq] at hask
  rw [next, hask]

theorem drain_eq (h : Tracks verdict scanned c left) :
    c.drain = ((gather verdict (left.getD scanned)).1,
      { c.start with scan := c.start.scan.withPending (gather verdict (left.getD scanned)).2 }) := by
  have hcollect := h.start.follows.collect c.start.scan (left.getD scanned)
  rw [← h.start.scan_eq] at hcollect
  simp only [drain, hcollect]

theorem call (h : Tracks verdict scanned c left) (call : Call) :
    (c.call call).1 = (Walk.step verdict scanned left call).1 ∧
      Tracks verdict scanned (c.call call).2 (Walk.step verdict scanned left call).2 := by
  cases call with
  | start => exact ⟨rfl, h.start⟩
  | next =>
    cases left with
    | none =>
      simp only [Cursor.call, h.next_of_none]
      exact ⟨rfl, h⟩
    | some records =>
      simp only [Cursor.call, h.next_eq]
      exact ⟨rfl, h.withPending _⟩
  | drain =>
    simp only [Cursor.call, h.drain_eq]
    exact ⟨rfl, h.start.withPending _⟩

theorem calls (h : Tracks verdict scanned c left) (calls : List Call) :
    (c.calls calls).1 = (Call.run (Walk.step verdict scanned) left calls).1 ∧
      Tracks verdict scanned (c.calls calls).2 (Call.run (Walk.step verdict scanned) left calls).2 :=
  Call.run_simulates (fun _ _ call h => h.call call) calls h

theorem next_eq_none_iff (h : Tracks verdict scanned c left) : c.next.1 = .ok none ↔
    ∃ rest, c.scan.pending = some rest ∧ ∀ r ∈ rest, verdict r = .ok false := by
  rw [h.pending]
  cases left with
  | none => simp [h.next_of_none]
  | some records => simp [h.next_eq, advance_eq_none_iff]

theorem calls_after_none (h : Tracks verdict scanned c left) (hnone : c.next.1 = .ok none)
    (later : List Call) : (c.next.2.calls later).1 = later.map Call.atEnd := by
  obtain ⟨rest, hrest, hskipped⟩ := h.next_eq_none_iff.1 hnone
  obtain rfl : left = some rest := h.pending.symm.trans hrest
  rw [h.next_eq, advance_of_skipped hskipped, ((h.withPending []).calls later).1, Walk.run_of_end]

end Tracks

theorem foldl_filter (predicates : List Predicate) (c : Cursor) :
    predicates.foldl filter c =
      ⟨c.scan, (predicates.map fun p => ⟨p, false⟩).reverse ++ c.filters⟩ := by
  induction predicates generalizing c with
  | nil => rfl
  | cons p rest ih => simp [ih, filter]

theorem tracks_ofPredicates (records : List Record) (kind : Option String) (predicates : List Predicate) :
    Tracks (Predicate.classify predicates) (recordsOfKind records kind)
      (ofPredicates records kind predicates) none := by
  rw [ofPredicates, foldl_filter]
  refine ⟨?_, ?_, rfl, by simp [ofRecords]⟩
  · simp only [ofRecords, List.append_nil, Filter.verdict_eq_classify]
  · refine List.filter_congr fun r _ => ?_
    cases kind <;> simp [Scan.admits, ofRecords]

variable {records : List Record} {kind : Option String} {predicates : List Predicate}
  {calls : List Call} {replies : List Reply}

/-- After any calls on a stack of filters over a scan, the replies are those of one walk over the records
of the scan by their classes. The records are accounted for: those that the calls consumed, each with its
fate, are the first ones, and those still to come are the others, so that none is handed out twice. The
next record is asked for in vain iff all that are to come would be skipped, and then always. -/
theorem calls_ofPredicates (h : (ofPredicates records kind predicates).calls calls = (replies, c)) :
    replies = Walk.replies (Predicate.classify predicates) (recordsOfKind records kind) calls ∧
      (∃ consumed, List.Forall₂ (Reply.Accounts (Predicate.classify predicates)) replies consumed ∧
        consumed.flatten.map Prod.fst ++ c.scan.pending.getD (recordsOfKind records kind) =
          recordsOfKind records kind) ∧
      (replies.flatMap Reply.records).Sublist (recordsOfKind records kind) ∧
      (c.next.1 = .ok none ↔ ∃ left, c.scan.pending = some left ∧
        ∀ r ∈ left, Predicate.classify predicates r = .ok false) ∧
      (c.next.1 = .ok none → ∀ later, (c.next.2.calls later).1 = later.map Call.atEnd) := by
  obtain ⟨hreplies, htracks⟩ := (tracks_ofPredicates records kind predicates).calls calls
  rw [h] at hreplies htracks
  obtain ⟨consumed, haccounts, hconsumed⟩ :=
    Walk.exists_accounts_run (Predicate.classify predicates) (recordsOfKind records kind) calls none
  rw [← hreplies] at haccounts
  rw [← htracks.pending, Option.getD_none] at hconsumed
  refine ⟨hreplies, ⟨consumed, haccounts, hconsumed⟩, ?_, htracks.next_eq_none_iff,
    htracks.calls_after_none⟩
  have hprefix : (consumed.flatten.map Prod.fst).Sublist (recordsOfKind records kind) := by
    have := List.sublist_append_left (consumed.flatten.map Prod.fst)
      (c.scan.pending.getD (recordsOfKind records kind))
    rwa [hconsumed] at this
  rw [← map_given_flatten haccounts]
  exact (List.filter_sublist.map _).trans hprefix

/-- Users, of whom four are called Doe, with a company among them. -/
def staff : List Record := [
  (Record.ofKind "User").set "last_name" (.string "Roe"),
  ((Record.ofKind "User").set "last_name" (.string "Doe")).set "first_name" (.string "John"),
  (Record.ofKind "User").set "last_name" (.string "Doe"),
  ((Record.ofKind "User").set "last_name" (.string "Doe")).set "first_name" (.string "Jack"),
  .ofKind "Company",
  ((Record.ofKind "User").set "last_name" (.string "Doe")).set "first_name" (.string "Jane")]

def doesButJane : List Predicate := [
  .test ⟨"User", "last_name", .string "Doe"⟩,
  .not (.test ⟨"User", "first_name", .string "Jane"⟩)]

/-- Jack is collected in vain, since the company fails. The Doe without a first name is skipped, and so
is Jane. -/
theorem calls_staff : ∃ replies c,
    (ofPredicates staff none doesButJane).calls [.next, .start, .next, .start, .drain, .next, .drain] =
      (replies, c) ∧
      replies = [.next (.error .notStarted), .started,
        .next (.ok (some
          (((Record.ofKind "User").set "last_name" (.string "Doe")).set "first_name" (.string "John")))),
        .started, .drained (.error (.eval (.otherKind "User" "Company"))),
        .next (.ok none), .drained (.ok [])] ∧
      ∀ later, (c.next.2.calls later).1 = later.map Call.atEnd := by
  have h : (ofPredicates staff none doesButJane).calls
      [.next, .start, .next, .start, .drain, .next, .drain] = (_, _) := rfl
  obtain ⟨hreplies, -, -, -, hend⟩ := calls_ofPredicates h
  exact ⟨_, _, h, hreplies.trans (by decide +kernel), hend (by decide +kernel)⟩

end Cursor

end EntitySearch
