import EntitySearch.Proofs.Engine.Answers
import EntitySearch.Proofs.Search.NullMembers
import EntitySearch.Proofs.Search.Reordered

/-!
# The order of members and what engines take

Neither the order in which objects have their members nor a `null` for a searchable field carries a meaning
(`Engine.resolve_ignores_member_order`). If one of two payloads that are alike is taken, then both are, with
one search and one predicate. If a payload is rejected, then so is every payload with its members in another
order, with the same faults but for their order.
-/

namespace EntitySearch

namespace Payload
variable {g : Engine} {payload payload' : Json}

/-- Payloads that are alike are resolved to the same searches. By induction on the steps between them, names
being different in all payloads on the way. -/
theorem Alike.resolve_eq_ok_iff (h : Alike g.schema payload payload') (hd : payload.hasDistinctKeys)
    (t : Search) : g.resolve payload = .ok t ↔ g.resolve payload' = .ok t := by
  induction h with
  | rel _ _ h =>
    rcases h with h | h
    · exact (Grammar.resolve_reordered h hd).eq_ok_iff
    · rw [Engine.resolve_eq_ok_iff, Engine.resolve_eq_ok_iff, h.reads_iff hd]
  | refl => rfl
  | symm _ _ h ih => exact (ih ((Alike.hasDistinctKeys_iff h).2 hd)).symm
  | trans _ _ _ h _ ih ih' => exact (ih hd).trans (ih' ((Alike.hasDistinctKeys_iff h).1 hd))

end Payload

namespace Engine

/-- Payloads that differ in the order of members and in the members of entity nodes that are `null` are both
taken if one is, with the same search and the same predicate. Payloads that differ in the order of members
are both rejected if the first one is, and the lists of faults differ in their order. -/
theorem resolve_ignores_member_order (g : Engine) (payload payload' : Json) (hd : payload.hasDistinctKeys) :
    (Payload.Alike g.schema payload payload' →
      (∃ t, g.resolve payload = .ok t ∨ g.resolve payload' = .ok t) →
      ∃ t p, g.resolve payload = .ok t ∧ g.resolve payload' = .ok t ∧ g.compileSearch t = .ok p ∧
        g.compile payload = .ok p ∧ g.compile payload' = .ok p) ∧
    (payload.Reordered payload' → ∀ rejection, g.resolve payload = .error rejection →
      ∃ rejection', g.resolve payload' = .error rejection' ∧
        Fault.Permuted rejection.faults rejection'.faults) := by
  constructor
  · rintro h ⟨t, ht⟩
    have hiff := h.resolve_eq_ok_iff hd t
    have ht : g.resolve payload = .ok t := ht.elim id hiff.2
    obtain ⟨p, hp⟩ := exists_compileSearch_iff.2 (fits_of_resolve ht)
    exact ⟨t, p, ht, hiff.1 ht, hp, compile_of_resolve ht hp, compile_of_resolve (hiff.1 ht) hp⟩
  · intro h rejection hr
    exact (Grammar.resolve_reordered h hd).exists_error hr

/-- All books but the first edition. -/
def allButOne : Json :=
  .object [
    ("type", .string "Not"),
    ("child", .object [("type", .string "Book"), ("isbn", .string "1")])]

/-- The same books, with the number of pages left open. -/
def allButOneOfAnyLength : Json :=
  .object [
    ("child", .object [("isbn", .string "1"), ("type", .string "Book"), ("pages", .null)]),
    ("type", .string "Not")]

/-- A book with a field that is not known and a number of the wrong type. -/
def misspelled : Json :=
  .object [
    ("type", .string "Book"),
    ("isbm", .string "1"),
    ("isbn", .object [("group", .null), ("title", .number (.ofInt64 1))])]

def misspelledBackwards : Json :=
  .object [
    ("isbn", .object [("title", .number (.ofInt64 1)), ("group", .null)]),
    ("isbm", .string "1"),
    ("type", .string "Book")]

theorem alike_allButOne : Payload.Alike (books none).schema allButOne allButOneOfAnyLength := by
  have hnull : Payload.GainsNull (books none).schema allButOne (.object [
      ("type", .string "Not"),
      ("child", .object [("pages", .null), ("type", .string "Book"), ("isbn", .string "1")])]) :=
    @Payload.GainsNull.child _ [("type", .string "Not")] [] _ _
      (.node (.head _) rfl (.tail _ (.head _)) (by decide))
  refine .trans _ _ _ (.rel _ _ (.inr hnull)) (.rel _ _ (.inl ?_))
  exact .object (.cons (.refl _) (.cons (.of_perm (List.reverse_perm _).symm) .nil)) (.swap _ _ _)

theorem reordered_misspelled : misspelled.Reordered misspelledBackwards :=
  .object (.cons (.refl _) (.cons (.refl _) (.cons (.of_perm (.swap _ _ _)) .nil))) (List.reverse_perm _).symm

/-- The search and the predicate of both payloads. Of the misspelled ones both faults are found either way, the
last one first if the members are turned around. -/
theorem resolve_allButOneOfAnyLength :
    allButOne.hasDistinctKeys ∧ misspelled.hasDistinctKeys ∧
      ((books none).resolve allButOneOfAnyLength =
          .ok (.not (.entity ((EntityQuery.ofKind "Book").set "isbn" (.string "1")))) ∧
        (books none).compile allButOne = .ok (.not (.test ⟨"Book", "isbn", .string "1"⟩)) ∧
        (books none).compile allButOneOfAnyLength = .ok (.not (.test ⟨"Book", "isbn", .string "1"⟩))) ∧
      ∃ rejection rejection', (books none).resolve misspelled = .error rejection ∧
        (books none).resolve misspelledBackwards = .error rejection' ∧
        Fault.Permuted rejection.faults rejection'.faults ∧ rejection.faults.length = 2 := by
  have hd : allButOne.hasDistinctKeys := by decide
  have hd' : misspelled.hasDistinctKeys := by decide
  have ht : (books none).resolve allButOne =
      .ok (.not (.entity ((EntityQuery.ofKind "Book").set "isbn" (.string "1")))) := by
    decide +kernel
  have hr : (books none).resolve misspelled = .error (.fields .root "Book" [
      ⟨Location.root.member "isbm", .unknownField "Book" "isbm"⟩,
      ⟨Location.root.member "isbn", .wrongShape "string"
        (.object [("group", .null), ("title", .number (.ofInt64 1))])⟩]) := by
    decide +kernel
  obtain ⟨t, p, ht', hnull, hsearch, hp, hp'⟩ :=
    (resolve_ignores_member_order _ _ _ hd).1 alike_allButOne ⟨_, .inl ht⟩
  cases ht.symm.trans ht'
  have hfirst : (books none).compileSearch
      (.not (.entity ((EntityQuery.ofKind "Book").set "isbn" (.string "1")))) =
        .ok (.not (.test ⟨"Book", "isbn", .string "1"⟩)) := by
    decide +kernel
  cases hsearch.symm.trans hfirst
  obtain ⟨rejection', hr', hfaults⟩ := (resolve_ignores_member_order _ _ _ hd').2 reordered_misspelled _ hr
  exact ⟨hd, hd', ⟨hnull, hp, hp'⟩, _, rejection', hr, hr', hfaults, rfl⟩

end Engine

end EntitySearch
