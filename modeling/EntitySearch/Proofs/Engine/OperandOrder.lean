import EntitySearch.Proofs.Engine.Answers
import EntitySearch.Proofs.Search.Shuffled

/-!
# The order of operands and answers

The order in which a payload lists the children of its nodes, at any depth, has no part in the answer
(`Engine.run_ignores_order`). A search with its children in another order has the same kind, so the same
records are scanned. No test fails on those, so both predicates have a value of each of them, and it is the
same one.
-/

namespace EntitySearch

namespace Search
variable {t t' : Search} {kind : String}

theorem kind?_eq_ite (hk : ∀ q ∈ t.queries, q.kind = kind) :
    t.kind? = if t.queries = [] then none else some kind := by
  rw [kind?_eq_head?]
  cases hqs : t.queries with
  | nil => rfl
  | cons q qs => simp [hk q (by simp [hqs])]

/-- Where all queries are of one kind, it does not matter which of them comes first. -/
theorem Shuffled.kind?_eq (h : t.Shuffled t') (hk : ∀ q ∈ t.queries, q.kind = kind) : t.kind? = t'.kind? := by
  have hk' : ∀ q ∈ t'.queries, q.kind = kind := fun q hq => hk q (h.queries_perm.mem_iff.2 hq)
  have hnil : t.queries = [] ↔ t'.queries = [] := by
    rw [← List.length_eq_zero_iff, ← List.length_eq_zero_iff, h.queries_perm.length_eq]
  simp only [kind?_eq_ite hk, kind?_eq_ite hk', hnil]

end Search

namespace Engine
variable {g : Engine} {payload payload' json : Json} {t t' : Search} {p p' : Predicate}
  {records : List Record} {kind : String} {r : Record}

theorem exists_resolve_of_shuffled (hd : payload.hasDistinctKeys) (ht : g.resolve payload = .ok t)
    (h : Payload.Shuffled payload payload') : ∃ t', g.resolve payload' = .ok t' ∧ t.Shuffled t' := by
  obtain ⟨hreads, hlimit⟩ := resolve_eq_ok_iff.1 ht
  obtain ⟨t', hreads', hshuffled⟩ := hreads.exists_shuffled hd h
  exact ⟨t', resolve_eq_ok_iff.2 ⟨hreads', hshuffled.height_eq ▸ hlimit⟩, hshuffled⟩

theorem selects_eq_of_shuffled (ht : g.resolve payload = .ok t) (hp : g.compileSearch t = .ok p)
    (hk : ∀ k ∈ Payload.kinds payload, k = kind) (hr : r.Fits g.schema) (hscans : t.scans r)
    (h : p.Shuffled p') : ∃ b, p.selects r = .ok b ∧ p'.selects r = .ok b := by
  obtain ⟨value, hvalue, hvalue'⟩ := h.exists_evaluate fun x hx =>
    ⟨_, Predicate.evaluate_eq_ok_iff.2 ⟨_, eval_of_mem_tests ht hp hk hr hscans hx, rfl⟩⟩
  exact ⟨_, map_eq_ok_iff.2 ⟨value, hvalue, rfl⟩, map_eq_ok_iff.2 ⟨value, hvalue', rfl⟩⟩

theorem exists_run_of_shuffled (ht : g.resolve payload = .ok t) (hp : g.compileSearch t = .ok p)
    (hk : ∀ k ∈ Payload.kinds payload, k = kind) (hr : ∀ r ∈ records, r.Fits g.schema)
    (hts : t.Shuffled t') (hps : p.Shuffled p') :
    ∃ answer, t.run p records = .ok answer ∧ t'.run p' records = .ok answer := by
  have hkinds : ∀ q ∈ t.queries, q.kind = kind := fun q hq =>
    hk _ ((resolve_eq_ok_iff.1 ht).1.kinds_eq ▸ List.mem_map_of_mem hq)
  have hscans : t.scans = t'.scans := by
    funext r
    rw [Search.scans, Search.scans, hts.kind?_eq hkinds]
  have hselects : ∀ r ∈ records.filter t.scans,
      p.selects r = .ok (p.selects r = .ok true) ∧ p'.selects r = .ok (p.selects r = .ok true) := by
    intro r hmem
    obtain ⟨hmem, hscan⟩ := List.mem_filter.1 hmem
    obtain ⟨b, hb, hb'⟩ := selects_eq_of_shuffled ht hp hk (hr r hmem) hscan hps
    simp [hb, hb']
  refine ⟨(records.filter t.scans).filter fun r => p.selects r = .ok true, ?_, ?_⟩
  · rw [Search.run_eq, gather_of_ok fun r hmem => (hselects r hmem).1]
  · rw [Search.run_eq, ← hscans, gather_of_ok fun r hmem => (hselects r hmem).2]

/-- The order of operands does not change what a predicate is of a record: where it has a value in both
orders, the values are equal, and where no test fails by itself it has one in both. So the children of a
payload may be in any order: it is resolved and compiled, and has the same answer over the same records. -/
theorem run_ignores_order :
    (∀ (p p' : Predicate) (r : Record), p.Shuffled p' →
      (∀ value value', p.evaluate r = .ok value → p'.evaluate r = .ok value' → value = value') ∧
      ((∀ x ∈ p.tests, ∃ value, (Predicate.test x).evaluate r = .ok value) →
        ∃ value, p.evaluate r = .ok value ∧ p'.evaluate r = .ok value)) ∧
    ∀ (g : Engine) (payload payload' json : Json) (t : Search) (kind : String) (records : List Record),
      payload.hasDistinctKeys → g.resolve payload = .ok t → (∀ k ∈ Payload.kinds payload, k = kind) →
      Payload.Shuffled payload payload' → Record.listOfJson g.schema json = .ok records →
      ∃ p t' p' answer, g.compile payload = .ok p ∧ g.resolve payload' = .ok t' ∧
        g.compile payload' = .ok p' ∧ p.Shuffled p' ∧
        t.run p records = .ok answer ∧ t'.run p' records = .ok answer := by
  refine ⟨fun p p' r h => ⟨fun _ _ => h.evaluate_inj, h.exists_evaluate⟩, ?_⟩
  intro g payload payload' json t kind records hd ht hk h hr
  obtain ⟨p, hp⟩ := exists_compileSearch_iff.2 (fits_of_resolve ht)
  obtain ⟨t', ht', hts⟩ := exists_resolve_of_shuffled hd ht h
  obtain ⟨p', hp', hps⟩ := hts.exists_compile hp
  obtain ⟨answer, hrun, hrun'⟩ :=
    exists_run_of_shuffled ht hp hk (Record.fits_of_listOfJson hr) hts hps
  exact ⟨p, t', p', answer, compile_of_resolve ht hp, ht', compile_of_resolve ht' hp', hps, hrun,
    hrun'⟩

/-- The payload `booksNotFirst` with its operands the other way round at both levels. -/
def notFirstBooks : Json :=
  .object [
    ("children", .array [
      .object [("child", .object [("type", .string "Book"), ("isbn", .string "1")]),
        ("type", .string "Not")],
      .object [("type", .string "Or"), ("children", .array [
        .object [("type", .string "Book"), ("in_print", .bool true)],
        .object [("price", .number (.ofInt64 12)), ("pages", .null), ("type", .string "Book")]])]]),
    ("type", .string "And")]

theorem shuffled_notFirstBooks : Payload.Shuffled booksNotFirst notFirstBooks := by
  refine @Payload.Shuffled.children [] [("type", .string "And")] _ _ _ (.cons ?_ (.cons (.refl _) .nil))
    (.swap _ _ _)
  exact @Payload.Shuffled.children [("type", .string "Or")] [] _ _ _
    (.cons (.refl _) (.cons (.refl _) .nil)) (.swap _ _ _)

/-- Of the first user the last name is unknown and the number is 1; of the books, those that are not the
first edition are found. -/
theorem run_notFirstBooks :
    (∃ value, (Predicate.or [.named "Doe", .numbered 1]).evaluate Predicate.firstUser = .ok value ∧
        (Predicate.or [.numbered 1, .named "Doe"]).evaluate Predicate.firstUser = .ok value) ∧
      booksNotFirst.hasDistinctKeys ∧ (∀ k ∈ Payload.kinds booksNotFirst, k = "Book") ∧
      Record.listOfJson (books none).schema (.array (shelf.map Record.toJson)) = .ok shelf ∧
      ∃ t p, (books none).resolve notFirstBooks = .ok t ∧ (books none).compile notFirstBooks = .ok p ∧
        t.run p shelf = .ok (shelf.filter fun r => r.get "isbn" = .string "2") := by
  have hshuffled : (Predicate.or [.named "Doe", .numbered 1]).Shuffled (.or [.numbered 1, .named "Doe"]) :=
    .or (.cons (.refl _) (.cons (.refl _) .nil)) (.swap _ _ _)
  have hleaves : ∀ x ∈ (Predicate.or [.named "Doe", .numbered 1]).tests,
      ∃ value, (Predicate.test x).evaluate Predicate.firstUser = .ok value := by
    intro x hx
    obtain rfl | rfl : x = ⟨"User", "last_name", .string "Doe"⟩ ∨ x = ⟨"User", "id", .int 1⟩ := by
      simpa [Predicate.named, Predicate.numbered, Predicate.tests, Predicate.testsOfList] using hx
    · exact ⟨.null, by decide⟩
    · exact ⟨.bool true, by decide⟩
  have hd : booksNotFirst.hasDistinctKeys := by decide
  have hk : ∀ k ∈ Payload.kinds booksNotFirst, k = "Book" := by decide +kernel
  have hr : Record.listOfJson (books none).schema (.array (shelf.map Record.toJson)) = .ok shelf := by
    decide +kernel
  have ht : (books none).resolve booksNotFirst = .ok (.and [
      .or [.entity ((EntityQuery.ofKind "Book").set "price" (.float (.ofInt 12))),
        .entity ((EntityQuery.ofKind "Book").set "in_print" (.bool true))],
      .not (.entity ((EntityQuery.ofKind "Book").set "isbn" (.string "1")))]) := by
    decide +kernel
  have hcompile : (books none).compile booksNotFirst = .ok (.and [
      .or [.test ⟨"Book", "price", .float (.ofInt 12)⟩, .test ⟨"Book", "in_print", .bool true⟩],
      .not (.test ⟨"Book", "isbn", .string "1"⟩)]) := by
    decide +kernel
  obtain ⟨p, t', p', answer, hp, ht', hp', -, hrun, hrun'⟩ :=
    run_ignores_order.2 _ _ _ _ _ _ _ hd ht hk shuffled_notFirstBooks hr
  obtain rfl := Except.ok.inj (hcompile.symm.trans hp)
  rw [Search.run_eq] at hrun
  have hanswer : answer = shelf.filter fun r => r.get "isbn" = .string "2" :=
    Except.ok.inj (hrun.symm.trans (by decide +kernel))
  rw [hanswer] at hrun'
  exact ⟨(run_ignores_order.1 _ _ _ hshuffled).2 hleaves, hd, hk, hr, t', p', ht', hp', hrun'⟩

end Engine

end EntitySearch
