import EntitySearch.Engine
import EntitySearch.Proofs.Except

/-!
# Filters over a scan

A stack of filters classifies each record by itself: the record is an error, is skipped or is given
(`Filter.verdict`). Once started, what a cursor answers is a walk over the records to come by their
classes, to the first one that is not skipped (`advance`) or to the end (`gather`), however high the
stack is. The invariant is `Source.Follows`: a source walks by a classification, and putting a filter on
top of it refines the classification.
-/

namespace EntitySearch

/-- The next record that a classification gives, and the records behind it. -/
def advance (verdict : Record → Except EvalError Bool) : List Record → Answer × List Record
  | [] => (.ok none, [])
  | r :: rest => match verdict r with
    | .error e => (.error (.eval e), rest)
    | .ok true => (.ok (some r), rest)
    | .ok false => advance verdict rest

/-- All records that a classification gives before an error, and the records behind that. -/
def gather (verdict : Record → Except EvalError Bool) :
    List Record → Except CursorError (List Record) × List Record
  | [] => (.ok [], [])
  | r :: rest => match verdict r with
    | .error e => (.error (.eval e), rest)
    | .ok true => ((gather verdict rest).1.map (r :: ·), (gather verdict rest).2)
    | .ok false => gather verdict rest

/-- What becomes of a record under filters, the outermost of them first. A filter sees only what the
filters below it give. -/
def Filter.verdict : List Filter → Record → Except EvalError Bool
  | [], _ => .ok true
  | f :: below, r => match verdict below r with
    | .ok true => f.predicate.selects r
    | skipped => skipped

section
variable {verdict : Record → Except EvalError Bool} {records : List Record}

theorem gather_of_ok {keep : Record → Bool} (h : ∀ r ∈ records, verdict r = .ok (keep r)) :
    gather verdict records = (.ok (records.filter keep), []) := by
  induction records with
  | nil => rfl
  | cons r rest ih =>
    have hr := h r (.head _)
    have ih := ih fun r hmem => h r (.tail _ hmem)
    rw [gather, hr]
    cases hk : keep r with
    | true => simp [ih, hk]
    | false => simp [ih, hk]

theorem isOk_of_gather_eq_ok {given : List Record} (h : (gather verdict records).1 = .ok given) :
    ∀ r ∈ records, (verdict r).isOk := by
  induction records generalizing given with
  | nil => exact fun _ hmem => absurd hmem List.not_mem_nil
  | cons r rest ih =>
    rw [gather] at h
    rw [List.forall_mem_cons]
    cases hr : verdict r with
    | error e =>
      rw [hr] at h
      cases h
    | ok b =>
      rw [hr] at h
      cases b with
      | true =>
        obtain ⟨later, hlater, -⟩ := map_eq_ok_iff.1 h
        exact ⟨rfl, ih hlater⟩
      | false => exact ⟨rfl, ih h⟩

theorem exists_of_gather_eq_error {error : CursorError} (h : (gather verdict records).1 = .error error) :
    ∃ r ∈ records, ∃ e, verdict r = .error e ∧ error = .eval e := by
  induction records with
  | nil => cases h
  | cons r rest ih =>
    have later (h : (gather verdict rest).1 = .error error) :
        ∃ r' ∈ r :: rest, ∃ e, verdict r' = .error e ∧ error = .eval e :=
      let ⟨r', hmem, h'⟩ := ih h
      ⟨r', .tail _ hmem, h'⟩
    rw [gather] at h
    cases hr : verdict r with
    | error e =>
      rw [hr] at h
      cases h
      exact ⟨r, .head _, e, hr, rfl⟩
    | ok b =>
      rw [hr] at h
      cases b with
      | true => exact later (map_eq_error_iff.1 h)
      | false => exact later h

end

section
variable {below source : Source} {p : Predicate} {s s' : Scan}

/-- A predicate is never anything but a boolean or `null`, so a filter only looks at whether the record
is selected. -/
theorem seek_eq (s : Scan) : seek below p s = match below.ask s with
    | (.ok (some r), s') => match p.selects r with
      | .error e => (.error (.eval e), s')
      | .ok true => (.ok (some r), s')
      | .ok false => seek below p s'
    | (.ok none, s') => (.ok none, s')
    | (.error e, s') => (.error e, s') := by
  rw [seek]
  split
  · next r s' h =>
    simp only [h, Predicate.selects, Predicate.evaluate]
    cases p.eval r with
    | error e => rfl
    | ok truth => cases truth <;> rfl
  · next h => rw [h]
  · next h => rw [h]

theorem collect_eq (s : Scan) : source.collect s = match source.ask s with
    | (.ok (some r), s') => ((source.collect s').1.map (r :: ·), (source.collect s').2)
    | (.ok none, s') => (.ok [], s')
    | (.error e, s') => (.error e, s') := by
  rw [Source.collect]
  split
  · next r s' h =>
    rw [h]
    split <;> next hc => simp [hc]
  · next h => rw [h]
  · next h => rw [h]

theorem seek_congr (h : below.ask s = below.ask s') : seek below p s = seek below p s' := by
  rw [seek_eq s, seek_eq s', h]

theorem collect_congr (h : source.ask s = source.ask s') : source.collect s = source.collect s' := by
  rw [collect_eq s, collect_eq s', h]

end

def Scan.withPending (s : Scan) (records : List Record) : Scan := { s with pending := some records }

namespace Source
variable {verdict : Record → Except EvalError Bool} {source below : Source} {f : Filter}
  {filters : List Filter}

/-- What the source answers is the walk over the records to come by their classes. -/
def Follows (source : Source) (verdict : Record → Except EvalError Bool) : Prop :=
  ∀ (s : Scan) records, source.ask (s.withPending records) =
    ((advance verdict records).1, s.withPending (advance verdict records).2)

theorem follows_ofScan : ofScan.Follows fun _ => .ok true := by
  intro s records
  cases records <;> rfl

theorem Follows.filter (h : below.Follows verdict) (hf : f.started) :
    (below.filter f).Follows fun r => match verdict r with
      | .ok true => f.predicate.selects r
      | skipped => skipped := by
  intro s records
  show (if f.started then seek below f.predicate _ else _) = _
  rw [if_pos hf]
  induction records with
  | nil => rw [seek_eq, h]; rfl
  | cons r rest ih =>
    have hask := h s (r :: rest)
    rw [advance] at hask ⊢
    cases hv : verdict r with
    | error e =>
      rw [hv] at hask
      rw [seek_eq, hask]
    | ok b =>
      rw [hv] at hask
      cases b with
      | false =>
        -- What is below has passed over the record itself, as if it were not there.
        have hskip : below.ask (s.withPending (r :: rest)) = below.ask (s.withPending rest) := by
          rw [hask, h]
        rw [seek_congr hskip, ih]
      | true =>
        rw [seek_eq, hask]
        cases hp : f.predicate.selects r with
        | error e => simp [hp]
        | ok b => cases b <;> simp [hp, ih]

theorem follows_ofFilters (h : ∀ f ∈ filters, f.started) :
    (ofFilters filters).Follows (Filter.verdict filters) := by
  induction filters with
  | nil => exact follows_ofScan
  | cons f below ih =>
    obtain ⟨hf, h⟩ := List.forall_mem_cons.1 h
    exact (ih h).filter hf

theorem Follows.collect (h : source.Follows verdict) (s : Scan) (records : List Record) :
    source.collect (s.withPending records) =
      ((gather verdict records).1, s.withPending (gather verdict records).2) := by
  induction records with
  | nil => rw [collect_eq, h]; rfl
  | cons r rest ih =>
    have hask := h s (r :: rest)
    rw [advance] at hask
    rw [gather]
    cases hv : verdict r with
    | error e =>
      rw [hv] at hask
      rw [collect_eq, hask]
    | ok b =>
      rw [hv] at hask
      cases b with
      | true =>
        rw [collect_eq, hask]
        simp only [ih]
      | false =>
        have hskip : source.ask (s.withPending (r :: rest)) = source.ask (s.withPending rest) := by
          rw [hask, h]
        rw [collect_congr hskip, ih]

end Source

theorem startFilters_eq {filters : List Filter} (h : ∀ f ∈ filters, f.started = false) (s : Scan) :
    startFilters filters s = (filters.map fun f => { f with started := true }, s.start) := by
  induction filters with
  | nil => rfl
  | cons f below ih =>
    obtain ⟨hf, h⟩ := List.forall_mem_cons.1 h
    simp [startFilters, hf, ih h]

@[simp] theorem Filter.verdict_map_started (filters : List Filter) :
    verdict (filters.map fun f => { f with started := true }) = verdict filters := by
  induction filters with
  | nil => rfl
  | cons f below ih => funext r; simp only [List.map_cons, verdict, ih]

namespace Cursor

/-- Neither the scan nor a filter has been started. -/
structure Fresh (c : Cursor) : Prop where
  scan : c.scan.pending = none
  filters : ∀ f ∈ c.filters, f.started = false

variable {c : Cursor}

theorem Fresh.start_eq (h : c.Fresh) : c.start =
    ⟨c.scan.withPending (c.scan.records.filter c.scan.admits),
      c.filters.map fun f => { f with started := true }⟩ := by
  simp only [start, startFilters_eq h.filters, Scan.start, h.scan, Scan.withPending]

/-- Draining a fresh cursor gathers what its filters give of the records that its scan admits. -/
theorem Fresh.drain (h : c.Fresh) :
    c.drain.1 = (gather (Filter.verdict c.filters) (c.scan.records.filter c.scan.admits)).1 := by
  have hstarted : ∀ f ∈ c.filters.map fun f => { f with started := true }, f.started := by simp
  have hfollows := Source.follows_ofFilters hstarted
  simp only [Cursor.drain, h.start_eq, source, hfollows.collect, Filter.verdict_map_started]

end Cursor

namespace Search
variable {t : Search} {p : Predicate} {records : List Record}

/-- Whether a record is among those that the search looks at. -/
def scans (t : Search) (r : Record) : Bool :=
  match t.kind? with
  | none => true
  | some kind => r.kind = kind

theorem scans_eq_true_iff {r : Record} : t.scans r = true ↔ ∀ kind ∈ t.kind?, r.kind = kind := by
  unfold scans
  cases t.kind? <;> simp

theorem run_eq (t : Search) (p : Predicate) (records : List Record) :
    t.run p records = (gather p.selects (records.filter t.scans)).1 := by
  have hfresh : (t.cursor p records).Fresh := ⟨rfl, by simp [cursor, Cursor.filter, Cursor.ofRecords]⟩
  exact hfresh.drain

end Search

end EntitySearch
