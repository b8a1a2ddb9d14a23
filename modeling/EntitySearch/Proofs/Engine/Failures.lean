import EntitySearch.Proofs.Cursor.Stack
import EntitySearch.Proofs.Engine.Resolved
import EntitySearch.Proofs.Predicate.Kleene
import EntitySearch.Proofs.Record.Typed

/-!
# How a search can fail

A search that was resolved, over records that were loaded, fails only where it reaches a test of a kind
that it does not scan (`Engine.run_fails_only_on_foreign_kinds`). The scan gives records of the kind of
the first query alone, so the test is of a later one; where there is no query there is no test, and the
predicate says the same of all records.
-/

namespace EntitySearch

namespace Search
variable {s : Schema} {t : Search} {p : Predicate} {records : List Record}

theorem exists_test_of_run_eq_error {error : CursorError} (h : t.run p records = .error error) :
    ∃ r ∈ records, t.scans r ∧ ∃ x ∈ p.tests, ∃ e, x.eval r = .error e ∧ error = .eval e := by
  rw [run_eq] at h
  obtain ⟨r, hr, e, he, rfl⟩ := exists_of_gather_eq_error h
  obtain ⟨hmem, hscans⟩ := List.mem_filter.1 hr
  obtain ⟨x, hx, hxe⟩ := p.exists_test_of_eval_eq_error (Predicate.selects_eq_error_iff.1 he)
  exact ⟨r, hmem, hscans, x, hx, e, hxe, rfl⟩

/-- A search without queries is about no kind, and its predicate is of all records what it is of one. -/
theorem run_of_queries_eq_nil (hp : t.compile s = .ok p) (ht : t.queries = []) :
    t.run p records = .ok records ∨ t.run p records = .ok [] := by
  have htests : p.tests = [] := by rw [tests_compile t hp, ht, List.flatMap_nil]
  have heval (r : Record) : p.eval r = .ok (p.kleene fun _ => .unknown) :=
    p.eval_eq_kleene (by simp [htests])
  have hscans : records.filter t.scans = records := by
    refine List.filter_eq_self.2 fun r _ => scans_eq_true_iff.2 ?_
    simp [kind?_eq_head?, ht]
  rw [run_eq, hscans, gather_of_ok fun r _ => Predicate.selects_of_eval (heval r)]
  by_cases htrue : (p.kleene fun _ => .unknown) = .true
  · exact .inl (by simp [htrue])
  · exact .inr (by simp [htrue])

end Search

namespace Engine
variable {g : Engine} {payload json : Json} {t : Search} {records : List Record}

/-- The only failure is a test of a kind other than that of the search, from a query with a wish. -/
theorem run_fails_only_on_foreign_kinds (ht : g.resolve payload = .ok t)
    (hr : Record.listOfJson g.schema json = .ok records) :
    ∃ p, g.compileSearch t = .ok p ∧
      (∀ error, t.run p records = .error error → ∃ expected actual,
        error = .eval (.otherKind expected actual) ∧ t.kind? = some actual ∧ expected ≠ actual ∧
          ∃ q ∈ t.queries, q.kind = expected ∧ q.isEmpty = false) ∧
      (t.queries = [] → t.run p records = .ok records ∨ t.run p records = .ok []) := by
  obtain ⟨p, hp⟩ := exists_compileSearch_iff.2 (fits_of_resolve ht)
  refine ⟨p, hp, fun error h => ?_, Search.run_of_queries_eq_nil hp⟩
  obtain ⟨r, hmem, hscans, x, hx, e, hxe, rfl⟩ := Search.exists_test_of_run_eq_error h
  obtain ⟨hfits, q, hq, hqk, hqe⟩ := Search.exists_query_of_mem_tests hp hx
  rw [FieldTest.eval_eq hfits (Record.fits_of_listOfJson hr r hmem)] at hxe
  split at hxe
  · cases hxe
  next hne =>
  cases hxe
  -- The search has a query, so it scans for a kind, and the record was scanned.
  have hkind : t.kind? = some r.kind := by
    cases hk : t.kind? with
    | none =>
      rw [Search.kind?_eq_head?, Option.map_eq_none_iff, List.head?_eq_none_iff] at hk
      rw [hk] at hq
      cases hq
    | some kind => rw [Search.scans_eq_true_iff.1 hscans kind hk]
  exact ⟨x.kind, r.kind, rfl, hkind, hne, q, hq, hqk, hqe⟩

/-- Users and companies at once. -/
def userAndAcme : Search :=
  .and [.entity (.ofKind "User"), .entity ((EntityQuery.ofKind "Company").set "name" (.string "Acme"))]

/-- The scan for users passes over the company and fails on the user. -/
theorem run_fails_on_userAndAcme :
    (usersAndCompanies none).resolve userAndAcme.toPayload = .ok userAndAcme ∧
      Record.listOfJson (usersAndCompanies none).schema (.array [
        .object [("type", .string "Company")],
        .object [("email", .null), ("type", .string "User")]]) = .ok [.ofKind "Company", .ofKind "User"] ∧
      ∃ p, (usersAndCompanies none).compileSearch userAndAcme = .ok p ∧
        userAndAcme.run p [.ofKind "Company", .ofKind "User"] =
          .error (.eval (.otherKind "Company" "User")) ∧
        userAndAcme.kind? = some "User" := by
  have ht : (usersAndCompanies none).resolve userAndAcme.toPayload = .ok userAndAcme := by
    decide +kernel
  have hr : Record.listOfJson (usersAndCompanies none).schema (.array [
      .object [("type", .string "Company")],
      .object [("email", .null), ("type", .string "User")]]) =
        .ok [.ofKind "Company", .ofKind "User"] := by
    decide +kernel
  obtain ⟨p, hp, hfail, -⟩ := run_fails_only_on_foreign_kinds ht hr
  have hpred : p = .and [.always, .test ⟨"Company", "name", .string "Acme"⟩] :=
    Except.ok.inj (hp.symm.trans (by decide +kernel))
  have hrun : userAndAcme.run p [.ofKind "Company", .ofKind "User"] =
      .error (.eval (.otherKind "Company" "User")) := by
    rw [Search.run_eq, hpred]
    decide +kernel
  obtain ⟨expected, actual, herror, hkind, -⟩ := hfail _ hrun
  cases herror
  exact ⟨ht, hr, p, hp, hrun, hkind⟩

end Engine

end EntitySearch
