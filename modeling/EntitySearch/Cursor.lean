import EntitySearch.Predicate.Eval

/-!
# Cursors

A cursor gives records one at a time: a scan over stored records, all of them or those of one kind,
under a stack of filters. It has to be started before the first record is asked for; starting it again
changes nothing. A filter asks what is below it until a record satisfies its predicate.

Only the scan moves, so a layer of the stack is a `Source`: a way to take a record from a scan. A record
taken is one record less to come, which is why a filter's search for a record comes to an end.
-/

namespace EntitySearch

inductive CursorError
  | notStarted
  | eval (error : EvalError)
  /-- A predicate has a value that is neither a boolean nor `null`. -/
  | notBoolean
deriving DecidableEq

def CursorError.message : CursorError → String
  | notStarted => "Executor not initialized. Call init() first."
  | eval error => error.message
  | notBoolean => "Predicate did not evaluate to boolean"

/-- What a cursor answers when it is asked for a record, `none` at the end. -/
abbrev Answer := Except CursorError (Option Record)

structure Scan where
  records : List Record
  /-- The kind of the records that are given, all kinds if there is none. -/
  kind : Option String
  /-- The records still to come, once the scan is started. -/
  pending : Option (List Record) := none
deriving DecidableEq

namespace Scan

def admits (s : Scan) (r : Record) : Bool :=
  match s.kind with
  | none => true
  | some kind => r.kind = kind

/-- Makes the records of the right kind pending, the first time. -/
def start (s : Scan) : Scan :=
  match s.pending with
  | some _ => s
  | none => { s with pending := some (s.records.filter s.admits) }

def next (s : Scan) : Answer × Scan :=
  match s.pending with
  | none => (.error .notStarted, s)
  | some [] => (.ok none, s)
  | some (r :: rest) => (.ok (some r), { s with pending := some rest })

def left (s : Scan) : Nat := (s.pending.getD []).length

theorem next_lt {s s' : Scan} {r : Record} (h : s.next = (.ok (some r), s')) : s'.left < s.left := by
  unfold next at h
  split at h
  · cases h
  · cases h
  · next hp => cases h; simp [left, hp]

end Scan

structure Filter where
  predicate : Predicate
  started : Bool := false
deriving DecidableEq

/-- A way to take records from a scan one at a time. -/
structure Source where
  ask : Scan → Answer × Scan
  lt : ∀ {s s' r}, ask s = (.ok (some r), s') → s'.left < s.left

/-- Asks what is below a filter until a record satisfies the predicate. -/
def seek (below : Source) (p : Predicate) (s : Scan) : Answer × Scan :=
  match _h : below.ask s with
  | (.ok (some r), s') => match p.evaluate r with
    | .ok (.bool true) => (.ok (some r), s')
    | .ok (.bool false) | .ok .null => seek below p s'
    | .ok _ => (.error .notBoolean, s')
    | .error e => (.error (.eval e), s')
  | (.ok none, s') => (.ok none, s')
  | (.error e, s') => (.error e, s')
termination_by s.left
decreasing_by all_goals exact below.lt _h

theorem seek_lt {below : Source} {p : Predicate} {s s' : Scan} {r : Record}
    (h : seek below p s = (.ok (some r), s')) : s'.left < s.left := by
  fun_induction seek below p s with
  | case1 s r₁ s₁ hr _ => cases h; exact below.lt hr
  | case2 s r₁ s₁ hr _ ih => exact Nat.lt_trans (ih h) (below.lt hr)
  | case3 s r₁ s₁ hr _ ih => exact Nat.lt_trans (ih h) (below.lt hr)
  | _ => cases h

namespace Source

def ofScan : Source := ⟨Scan.next, Scan.next_lt⟩

/-- What is left of a source under a filter. -/
def filter (f : Filter) (below : Source) : Source where
  ask s := if f.started then seek below f.predicate s else (.error .notStarted, s)
  lt h := by
    split at h
    · exact seek_lt h
    · cases h

def ofFilters (filters : List Filter) : Source := filters.foldr filter ofScan

def collect (source : Source) (s : Scan) : Except CursorError (List Record) × Scan :=
  match _h : source.ask s with
  | (.ok (some r), s') => match collect source s' with
    | (.ok rs, s'') => (.ok (r :: rs), s'')
    | (.error e, s'') => (.error e, s'')
  | (.ok none, s') => (.ok [], s')
  | (.error e, s') => (.error e, s')
termination_by s.left
decreasing_by exact source.lt _h

end Source

/-- Starts the filters from the outermost one on, until one is found started. -/
def startFilters : List Filter → Scan → List Filter × Scan
  | [], s => ([], s.start)
  | f :: below, s =>
    if f.started then (f :: below, s)
    else
      let (below, s) := startFilters below s
      ({ f with started := true } :: below, s)

/-- A scan under filters, the outermost filter first. -/
structure Cursor where
  scan : Scan
  filters : List Filter
deriving DecidableEq

namespace Cursor

def ofRecords (records : List Record) (kind : Option String) : Cursor := ⟨⟨records, kind, none⟩, []⟩

def filter (c : Cursor) (p : Predicate) : Cursor := { c with filters := ⟨p, false⟩ :: c.filters }

def start (c : Cursor) : Cursor :=
  let (filters, scan) := startFilters c.filters c.scan
  ⟨scan, filters⟩

def source (c : Cursor) : Source := .ofFilters c.filters

def next (c : Cursor) : Answer × Cursor :=
  let (answer, scan) := c.source.ask c.scan
  (answer, { c with scan })

/-- Starts the cursor and asks for all of its records; they are lost if one of them is an error. -/
def drain (c : Cursor) : Except CursorError (List Record) × Cursor :=
  let c := c.start
  let (answer, scan) := c.source.collect c.scan
  (answer, { c with scan })

end Cursor

end EntitySearch
