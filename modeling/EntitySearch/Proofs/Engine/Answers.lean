import EntitySearch.Proofs.Cursor.Stack
import EntitySearch.Proofs.Engine.Resolved
import EntitySearch.Proofs.Search.Meaning

/-!
# What a search answers

Where all entity nodes of a payload are of one kind, its search answers with the records of that kind of
which the payload is true, as they come (`Engine.run_eq_filter_truth`). No test fails on a record that is
scanned, so evaluation gives the Kleene truth of the predicate, which is that of the payload.
-/

namespace EntitySearch

namespace Engine
variable {g : Engine} {payload json : Json} {t : Search} {p : Predicate} {records : List Record}
  {kind : String} {r : Record}

/-- A scanned record has the kind of the payload, so no test fails on it. -/
theorem eval_of_mem_tests {x : FieldTest} (ht : g.resolve payload = .ok t) (hp : g.compileSearch t = .ok p)
    (hk : ∀ k ∈ Payload.kinds payload, k = kind) (hr : r.Fits g.schema) (hscans : t.scans r)
    (hx : x ∈ p.tests) : x.eval r = .ok (x.truth r) := by
  have hreads := (resolve_eq_ok_iff.1 ht).1
  obtain ⟨hfits, q, hq, hqk, -⟩ := Search.exists_query_of_mem_tests hp hx
  have hkinds : ∀ q ∈ t.queries, q.kind = kind := fun q hq =>
    hk _ (hreads.kinds_eq ▸ List.mem_map_of_mem hq)
  have hkind : x.kind = r.kind := by
    obtain ⟨first, rest, hqs⟩ := List.exists_cons_of_ne_nil (List.ne_nil_of_mem hq)
    have hfirst : t.kind? = some first.kind := by rw [Search.kind?_eq_head?, hqs]; rfl
    rw [Search.scans_eq_true_iff.1 hscans _ hfirst, ← hqk, hkinds q hq, hkinds first (by simp [hqs])]
  rw [FieldTest.eval_eq hfits hr, if_pos hkind]

theorem eval_eq_truth (hd : payload.hasDistinctKeys) (ht : g.resolve payload = .ok t)
    (hp : g.compileSearch t = .ok p) (hk : ∀ k ∈ Payload.kinds payload, k = kind)
    (hr : r.Fits g.schema) (hscans : t.scans r) :
    p.eval r = .ok (Payload.truth g.schema r payload) := by
  rw [← (resolve_eq_ok_iff.1 ht).1.kleene_eq_truth hd hp]
  exact p.eval_eq_kleene fun _ hx => eval_of_mem_tests ht hp hk hr hscans hx

theorem scans_iff (ht : g.resolve payload = .ok t) (hk : ∀ k ∈ Payload.kinds payload, k = kind) :
    t.scans r ↔ Payload.kinds payload = [] ∨ r.kind = kind := by
  rw [Search.scans_eq_true_iff, Search.kind?_eq_head?, ← List.head?_map,
    ← (resolve_eq_ok_iff.1 ht).1.kinds_eq]
  cases hkinds : Payload.kinds payload with
  | nil => simp
  | cons k ks => simp [hk k (by simp [hkinds])]

/-- The answer is the list of the records, in order and as often as they occur, that are of the kind of
the payload, if it has one, and of which the payload is true. -/
theorem run_eq_filter_truth (hd : payload.hasDistinctKeys) (ht : g.resolve payload = .ok t)
    (hk : ∀ k ∈ Payload.kinds payload, k = kind)
    (hr : Record.listOfJson g.schema json = .ok records) :
    ∃ p, g.compile payload = .ok p ∧ t.kind? = (Payload.kinds payload).head? ∧
      t.run p records = .ok (records.filter fun r =>
        (Payload.kinds payload = [] ∨ r.kind = kind) ∧ Payload.truth g.schema r payload = .true) := by
  obtain ⟨p, hp⟩ := exists_compileSearch_iff.2 (fits_of_resolve ht)
  have hreads := (resolve_eq_ok_iff.1 ht).1
  refine ⟨p, compile_of_resolve ht hp, ?_, ?_⟩
  · rw [Search.kind?_eq_head?, hreads.kinds_eq, List.head?_map]
  have hselects : ∀ r ∈ records.filter t.scans,
      p.selects r = .ok (decide (Payload.truth g.schema r payload = .true)) := by
    intro r hmem
    obtain ⟨hmem, hscans⟩ := List.mem_filter.1 hmem
    exact Predicate.selects_of_eval
      (eval_eq_truth hd ht hp hk (Record.fits_of_listOfJson hr r hmem) hscans)
  rw [Search.run_eq, gather_of_ok hselects, List.filter_filter]
  refine congrArg Except.ok (List.filter_congr fun r _ => ?_)
  rw [Bool.decide_and, Bool.and_comm]
  exact congrArg (· && _) (Bool.eq_iff_iff.2 (by rw [decide_eq_true_iff]; exact scans_iff ht hk))

/-- Books in print or at a price of 12, but not the first edition. -/
def booksNotFirst : Json :=
  .object [
    ("children", .array [
      .object [("type", .string "Or"), ("children", .array [
        .object [("price", .number (.ofInt64 12)), ("pages", .null), ("type", .string "Book")],
        .object [("type", .string "Book"), ("in_print", .bool true)]])],
      .object [("child", .object [("type", .string "Book"), ("isbn", .string "1")]),
        ("type", .string "Not")]]),
    ("type", .string "And")]

def shelf : List Record := [
  ((Record.ofKind "Book").set "isbn" (.string "1")).set "in_print" (.bool true),
  ((Record.ofKind "Book").set "isbn" (.string "2")).set "price" (.float (.ofInt 12)),
  (Record.ofKind "Book").set "in_print" (.bool true),
  ((Record.ofKind "Book").set "isbn" (.string "2")).set "price" (.float (.ofInt 12))]

/-- Of a book in print without a number it is unknown whether it is the first edition. -/
theorem run_shelf :
    booksNotFirst.hasDistinctKeys ∧ (∀ k ∈ Payload.kinds booksNotFirst, k = "Book") ∧
      Record.listOfJson (books none).schema (.array (shelf.map Record.toJson)) = .ok shelf ∧
      ∃ t p, (books none).resolve booksNotFirst = .ok t ∧ (books none).compile booksNotFirst = .ok p ∧
        t.run p shelf = .ok (shelf.filter fun r => r.get "isbn" = .string "2") := by
  have hd : booksNotFirst.hasDistinctKeys := by decide
  have hk : ∀ k ∈ Payload.kinds booksNotFirst, k = "Book" := by decide +kernel
  have hr : Record.listOfJson (books none).schema (.array (shelf.map Record.toJson)) = .ok shelf := by
    decide +kernel
  have ht : (books none).resolve booksNotFirst = .ok (.and [
      .or [.entity ((EntityQuery.ofKind "Book").set "price" (.float (.ofInt 12))),
        .entity ((EntityQuery.ofKind "Book").set "in_print" (.bool true))],
      .not (.entity ((EntityQuery.ofKind "Book").set "isbn" (.string "1")))]) := by
    decide +kernel
  obtain ⟨p, hp, -, hrun⟩ := run_eq_filter_truth hd ht hk hr
  exact ⟨hd, hk, hr, _, p, ht, hp, hrun.trans (by decide +kernel)⟩

end Engine

end EntitySearch
