import EntitySearch.Proofs.Engine.Answers
import EntitySearch.Proofs.Search.RoundTrip

/-!
# A search and its negation

Of the records of the kind that a payload is about, some are answers, some are answers to its negation,
and of the others the payload is unknown. No record is both, and a record that is neither lacks a column
that the predicate tests (`Engine.negation_splits_records`), since a column that is there can be compared.
-/

namespace EntitySearch

/-- How the answers to a payload and those to its negation lie among the records. -/
structure SplitsRecords (kind : String) (tests : List FieldTest) (records : List Record)
    (answered negated : Record → Bool) : Prop where
  disjoint : ∀ r ∈ records, ¬ (answered r ∧ negated r)
  ofKind : ∀ r ∈ records, answered r ∨ negated r → r.kind = kind
  unset : ∀ r ∈ records, r.kind = kind → ¬ answered r → ¬ negated r → ∃ x ∈ tests, r.get x.field = .null

/-- Where all columns that are tested are set, one answer is the complement of the other. -/
theorem SplitsRecords.complement {kind : String} {tests : List FieldTest} {records : List Record}
    {answered negated : Record → Bool} (h : SplitsRecords kind tests records answered negated)
    (hset : ∀ r ∈ records, r.kind = kind → ∀ x ∈ tests, r.get x.field ≠ .null) :
    ∀ r ∈ records, r.kind = kind → negated r = !answered r := by
  intro r hr hk
  have hboth : ¬ (answered r ∧ negated r) := h.disjoint r hr
  have hone : answered r ∨ negated r := by
    by_contra hneither
    obtain ⟨ha, hn⟩ := not_or.1 hneither
    obtain ⟨x, hx, hnull⟩ := h.unset r hr hk ha hn
    exact hset r hr hk x hx hnull
  cases ha : answered r with
  | true => simpa [ha] using hboth
  | false => simpa [ha] using hone

theorem FieldTest.get_eq_null_of_truth_eq {x : FieldTest} {r : Record} (h : x.truth r = .unknown) :
    r.get x.field = .null := by
  unfold truth at h
  rw [Record.get]
  cases hcol : r.columns.get? x.field with
  | none => rfl
  | some v =>
    rw [hcol] at h
    cases hv : v.same x.value <;> simp [hv, Truth.ofBool] at h

def Payload.negation (payload : Json) : Json := .object [(tagKey, .string "Not"), ("child", payload)]

namespace Payload
variable {s : Schema} {payload : Json}

theorem truth_negation (r : Record) : truth s r (negation payload) = (truth s r payload).neg :=
  truth_not rfl

theorem kinds_negation : kinds (negation payload) = kinds payload := kinds_not rfl

theorem hasDistinctKeys_negation (h : payload.hasDistinctKeys) : (negation payload).hasDistinctKeys := by
  refine Json.hasDistinctKeys_object_iff.2 ⟨by simp [tagKey], fun m hm => ?_⟩
  rcases List.mem_pair.1 hm with rfl | rfl
  · rfl
  · exact h

end Payload

theorem Grammar.Reads.isObject {g : Grammar} {payload : Json} {t : Search} (h : g.Reads payload t) :
    payload.isObject := by
  cases h <;> rfl

namespace Engine
variable {g : Engine} {payload json : Json} {t : Search} {p : Predicate} {records : List Record}
  {kind : String} {r : Record}

theorem resolve_negation (hg : g.maxDepth = none) (ht : g.resolve payload = .ok t) :
    g.resolve (Payload.negation payload) = .ok (.not t) := by
  have hreads := (resolve_eq_ok_iff.1 ht).1
  have hform : Form.not ∈ g.grammar.forms := mem_forms_iff.2 (.inl rfl)
  refine resolve_eq_ok_iff.2 ⟨.not hform (Form.admits_not hreads.isObject) hreads, ?_⟩
  simp [hg]

theorem run_eq_filter_of_kind (hd : payload.hasDistinctKeys) (ht : g.resolve payload = .ok t)
    (hp : g.compileSearch t = .ok p) (hk : ∀ k ∈ Payload.kinds payload, k = kind)
    (hne : Payload.kinds payload ≠ []) (hr : ∀ r ∈ records, r.Fits g.schema) :
    t.run p records = .ok (records.filter fun r =>
      r.kind = kind ∧ Payload.truth g.schema r payload = .true) := by
  have hscans (r : Record) : t.scans r ↔ r.kind = kind := by
    rw [scans_iff ht hk, or_iff_right hne]
  have hselects : ∀ r ∈ records.filter t.scans,
      p.selects r = .ok (decide (Payload.truth g.schema r payload = .true)) := by
    intro r hmem
    obtain ⟨hmem, hscan⟩ := List.mem_filter.1 hmem
    exact Predicate.selects_of_eval (eval_eq_truth hd ht hp hk (hr r hmem) hscan)
  rw [Search.run_eq, gather_of_ok hselects, List.filter_filter]
  refine congrArg Except.ok (List.filter_congr fun r _ => Bool.eq_iff_iff.2 ?_)
  rw [Bool.and_eq_true, decide_eq_true_iff, decide_eq_true_iff, hscans, and_comm]

theorem exists_unset_of_truth_eq (hd : payload.hasDistinctKeys) (ht : g.resolve payload = .ok t)
    (hp : g.compileSearch t = .ok p) (h : Payload.truth g.schema r payload = .unknown) :
    ∃ x ∈ p.tests, r.get x.field = .null := by
  have hreads := (resolve_eq_ok_iff.1 ht).1
  rw [← hreads.kleene_eq_truth hd hp] at h
  obtain ⟨x, hx, hunknown⟩ := p.exists_test_of_kleene_eq_unknown h
  exact ⟨x, hx, FieldTest.get_eq_null_of_truth_eq hunknown⟩

theorem splitsRecords_of_truth (hd : payload.hasDistinctKeys) (ht : g.resolve payload = .ok t)
    (hp : g.compileSearch t = .ok p) : SplitsRecords kind p.tests records
      (fun r => r.kind = kind ∧ Payload.truth g.schema r payload = .true)
      (fun r => r.kind = kind ∧ Payload.truth g.schema r (Payload.negation payload) = .true) where
  disjoint r _ := by
    simp only [decide_eq_true_iff, Payload.truth_negation, Truth.neg_eq_true_iff]
    rintro ⟨⟨-, htrue⟩, -, hfalse⟩
    rw [htrue] at hfalse
    cases hfalse
  ofKind r _ h := by
    simp only [decide_eq_true_iff] at h
    rcases h with ⟨hk, -⟩ | ⟨hk, -⟩
    · exact hk
    · exact hk
  unset r _ hk ha hn := by
    simp only [decide_eq_true_iff, Payload.truth_negation, Truth.neg_eq_true_iff, hk, true_and] at ha hn
    have hunknown : Payload.truth g.schema r payload = .unknown := by
      cases htruth : Payload.truth g.schema r payload with
      | unknown => rfl
      | true => exact absurd htruth ha
      | false => exact absurd htruth hn
    exact exists_unset_of_truth_eq hd ht hp hunknown

/-- Without a limit, the negation of a payload is resolved and compiled to the negations, and the two
answers split the records of the kind but for those with a tested column unset. -/
theorem negation_splits_records (hg : g.maxDepth = none) (hd : payload.hasDistinctKeys)
    (ht : g.resolve payload = .ok t) (hk : ∀ k ∈ Payload.kinds payload, k = kind)
    (hne : Payload.kinds payload ≠ []) (hr : Record.listOfJson g.schema json = .ok records) :
    ∃ p, g.compile payload = .ok p ∧ g.resolve (Payload.negation payload) = .ok (.not t) ∧
      g.compile (Payload.negation payload) = .ok (.not p) ∧ ∃ answered negated : Record → Bool,
        t.run p records = .ok (records.filter answered) ∧
        (Search.not t).run (.not p) records = .ok (records.filter negated) ∧
        SplitsRecords kind p.tests records answered negated ∧
        ((∀ r ∈ records, r.kind = kind → ∀ x ∈ p.tests, r.get x.field ≠ .null) →
          ∀ r ∈ records, r.kind = kind → negated r = !answered r) := by
  obtain ⟨p, hp⟩ := exists_compileSearch_iff.2 (fits_of_resolve ht)
  have hfits := Record.fits_of_listOfJson hr
  have htn := resolve_negation hg ht
  have hpn : g.compileSearch (.not t) = .ok (.not p) := map_eq_ok_iff.2 ⟨p, hp, rfl⟩
  have hrun := run_eq_filter_of_kind hd ht hp hk hne hfits
  have hrunn := run_eq_filter_of_kind (Payload.hasDistinctKeys_negation hd) htn hpn
    (by rwa [Payload.kinds_negation]) (by rwa [Payload.kinds_negation]) hfits
  have hsplits : SplitsRecords kind p.tests records _ _ := splitsRecords_of_truth hd ht hp
  exact ⟨p, compile_of_resolve ht hp, htn, compile_of_resolve htn hpn, _, _, hrun, hrunn, hsplits,
    hsplits.complement⟩

/-- All books but the first edition. -/
def allButFirst : Json :=
  .object [("type", .string "And"), ("children", .array [
    .object [("type", .string "Book")],
    .object [("child", .object [("isbn", .string "1"), ("type", .string "Book")]), ("type", .string "Not")]])]

/-- A book without a number is in neither answer. -/
theorem negation_splits_shelf :
    (books none).maxDepth = none ∧ allButFirst.hasDistinctKeys ∧
      (∀ k ∈ Payload.kinds allButFirst, k = "Book") ∧ Payload.kinds allButFirst ≠ [] ∧
      Record.listOfJson (books none).schema (.array (shelf.map Record.toJson)) = .ok shelf ∧
      ∃ p, (books none).compile allButFirst = .ok p ∧ ∃ answered negated : Record → Bool,
        SplitsRecords "Book" p.tests shelf answered negated ∧
        shelf.filter answered = shelf.filter (fun r => r.get "isbn" = .string "2") ∧
        shelf.filter negated = shelf.filter (fun r => r.get "isbn" = .string "1") := by
  have hd : allButFirst.hasDistinctKeys := by decide
  have hk : ∀ k ∈ Payload.kinds allButFirst, k = "Book" := by decide +kernel
  have hne : Payload.kinds allButFirst ≠ [] := by decide +kernel
  have hr : Record.listOfJson (books none).schema (.array (shelf.map Record.toJson)) = .ok shelf := by
    decide +kernel
  have ht : (books none).resolve allButFirst = .ok (.and [.entity (.ofKind "Book"),
      .not (.entity ((EntityQuery.ofKind "Book").set "isbn" (.string "1")))]) := by
    decide +kernel
  have hcompile : (books none).compile allButFirst =
      .ok (.and [.always, .not (.test ⟨"Book", "isbn", .string "1"⟩)]) := by
    decide +kernel
  obtain ⟨p, hp, -, -, answered, negated, hrun, hrunn, hsplits, -⟩ :=
    negation_splits_records rfl hd ht hk hne hr
  obtain rfl : .and [.always, .not (.test ⟨"Book", "isbn", .string "1"⟩)] = p :=
    Except.ok.inj (hcompile.symm.trans hp)
  rw [Search.run_eq] at hrun hrunn
  have hanswered : shelf.filter answered = shelf.filter fun r => r.get "isbn" = .string "2" :=
    Except.ok.inj (hrun.symm.trans (by decide +kernel))
  have hnegated : shelf.filter negated = shelf.filter fun r => r.get "isbn" = .string "1" :=
    Except.ok.inj (hrunn.symm.trans (by decide +kernel))
  exact ⟨rfl, hd, hk, hne, hr, _, hp, answered, negated, hsplits, hanswered, hnegated⟩

end Engine

end EntitySearch
