import EntitySearch.Proofs.Search.Fits

/-!
# Compiling what is resolved

A search that an engine resolves needs no further check: it fits the schema, so it compiles
(`Engine.compiles_resolved`). An engine carries the proof that its schema and its grammar were accepted,
and this is where the rules for names are needed.
-/

namespace EntitySearch

namespace Engine
variable {g : Engine} {payload : Json} {t : Search}

theorem resolve_eq_ok_iff :
    g.resolve payload = .ok t ↔ g.grammar.Reads payload t ∧ ∀ l ∈ g.maxDepth, t.height ≤ l :=
  Grammar.resolve_eq_ok_iff

theorem fits_of_resolve (h : g.resolve payload = .ok t) : t.Fits g.schema :=
  (resolve_eq_ok_iff.1 h).1.fits

theorem exists_compileSearch_iff : (∃ p, g.compileSearch t = .ok p) ↔ t.Fits g.schema :=
  Search.exists_compile_iff t

theorem compile_of_resolve {p : Predicate} (h : g.resolve payload = .ok t)
    (hp : g.compileSearch t = .ok p) : g.compile payload = .ok p := by
  simp only [compile, h, hp]

theorem exists_search_of_compile {p : Predicate} (h : g.compile payload = .ok p) :
    ∃ t, g.resolve payload = .ok t ∧ g.compileSearch t = .ok p := by
  unfold compile at h
  cases ht : g.resolve payload with
  | error rejection => rw [ht] at h; cases h
  | ok t =>
    cases hp : g.compileSearch t with
    | error e => simp [ht, hp] at h
    | ok q =>
      obtain rfl : q = p := by simpa [ht, hp] using h
      exact ⟨t, rfl, hp⟩

/-- Every search that is resolved compiles, so that a payload is never refused by the compiler. -/
theorem compiles_resolved (g : Engine) (payload : Json) :
    (∀ t, g.resolve payload = .ok t → ∃ p, g.compileSearch t = .ok p ∧ g.compile payload = .ok p) ∧
      ∀ e, g.compile payload ≠ .error (.uncompilable e) := by
  have hok : ∀ t, g.resolve payload = .ok t → ∃ p, g.compileSearch t = .ok p := fun t h =>
    exists_compileSearch_iff.2 (fits_of_resolve h)
  refine ⟨fun t h => ?_, fun e he => ?_⟩
  · obtain ⟨p, hp⟩ := hok t h
    exact ⟨p, hp, compile_of_resolve h hp⟩
  · cases h : g.resolve payload with
    | error r => simp [compile, h] at he
    | ok t =>
      obtain ⟨p, hp⟩ := hok t h
      rw [compile_of_resolve h hp] at he
      cases he

/-- No company, or the user with the number seven; `null` among the members of an entity node is no wish. -/
def notCompanyOrSeven : Json :=
  .object [
    ("type", .string "Or"),
    ("children", .array [
      .object [("type", .string "Not"), ("child", .object [("type", .string "Company")])],
      .object [("email", .null), ("type", .string "User"), ("id", .number (.ofInt64 7))]])]

/-- A company is looked for by no wish at all, which every record fulfils. -/
theorem compiles_resolved_usersAndCompanies :
    (usersAndCompanies (some 3)).resolve notCompanyOrSeven = .ok (.or [
      .not (.entity (.ofKind "Company")),
      .entity ((EntityQuery.ofKind "User").set "id" (.int 7))]) ∧
    (usersAndCompanies (some 3)).compile notCompanyOrSeven =
      .ok (.or [.not .always, .test ⟨"User", "id", .int 7⟩]) := by
  have ht : (usersAndCompanies (some 3)).resolve notCompanyOrSeven = .ok (.or [
      .not (.entity (.ofKind "Company")),
      .entity ((EntityQuery.ofKind "User").set "id" (.int 7))]) := by
    decide +kernel
  obtain ⟨p, hsearch, hp⟩ := (compiles_resolved (usersAndCompanies (some 3)) notCompanyOrSeven).1 _ ht
  have hseven : (usersAndCompanies (some 3)).compileSearch (.or [
      .not (.entity (.ofKind "Company")),
      .entity ((EntityQuery.ofKind "User").set "id" (.int 7))]) =
        .ok (.or [.not .always, .test ⟨"User", "id", .int 7⟩]) := by
    decide +kernel
  cases hsearch.symm.trans hseven
  exact ⟨ht, hp⟩

end Engine

end EntitySearch
