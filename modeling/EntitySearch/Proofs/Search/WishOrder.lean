import EntitySearch.Proofs.Search.Tests

/-!
# The order of tests

The predicate of a search has one test for each wish of its entity queries, those of a query by the place of their
fields in the schema (`Search.tests_eq_sorted_wishes`). A query has its wishes by the names of the fields
(`EntityQuery.wishTests`), and the compiler goes through the fields of the entity instead; that both find the same tests
is `EntityQuery.Fits.testsIn_perm`.
-/

namespace EntitySearch

theorem mergeSort_eq_of_pairwise_lt {α : Type} {key : α → Nat} {xs ys : List α} (hperm : xs.Perm ys)
    (hlt : xs.Pairwise (key · < key ·)) : ys.mergeSort (key · ≤ key ·) = xs := by
  have htrans (x y z : α) : decide (key x ≤ key y) → decide (key y ≤ key z) → decide (key x ≤ key z) := by
    simpa using Nat.le_trans
  have htotal (x y : α) : decide (key x ≤ key y) || decide (key y ≤ key x) := by
    simpa using Nat.le_total (key x) (key y)
  have hsorted : (ys.mergeSort (key · ≤ key ·)).Pairwise (key · ≤ key ·) := by
    simpa using List.pairwise_mergeSort htrans htotal ys
  have hsame : (ys.mergeSort (key · ≤ key ·)).Perm xs := (List.mergeSort_perm ys _).trans hperm.symm
  have hne : (ys.mergeSort (key · ≤ key ·)).Pairwise (key · ≠ key ·) :=
    (hsame.pairwise_iff fun h => h.symm).2 (hlt.imp Nat.ne_of_lt)
  exact List.Perm.eq_of_pairwise (fun _ _ _ _ hab hba => absurd hab (Nat.lt_asymm hba))
    (hsorted.imp₂ (fun _ _ => Nat.lt_of_le_of_ne) hne) hlt hsame

/-- The place of a test's field among the fields of the entity. -/
def Schema.place (s : Schema) (x : FieldTest) : Nat :=
  (s.entity? x.kind).elim 0 fun e => (e.fields.map Field.name).idxOf x.field

theorem Entity.WellFormed.pairwise_idxOf {e : Entity} (h : e.WellFormed) :
    e.fields.Pairwise fun f f' =>
      (e.fields.map Field.name).idxOf f.name < (e.fields.map Field.name).idxOf f'.name := by
  refine List.pairwise_iff_getElem.2 fun i j hi hj hij => ?_
  have hplace (k : Nat) (hk : k < e.fields.length) :
      (e.fields.map Field.name).idxOf e.fields[k].name = k := by
    have hmap := h.nodup.idxOf_getElem k (by simpa using hk)
    rwa [List.getElem_map] at hmap
  rw [hplace i hi, hplace j hj]
  exact hij

namespace EntityQuery
variable {s : Schema} {q : EntityQuery} {e : Entity} {x : FieldTest}

/-- One test per wish, by the names of the fields. -/
def wishTests (q : EntityQuery) : List FieldTest :=
  q.wanted.entries.map fun (field, value) => ⟨q.kind, field, value⟩

theorem mem_wishTests_iff : x ∈ q.wishTests ↔ x.kind = q.kind ∧ q.get? x.field = some x.value := by
  simp only [wishTests, List.mem_map, get?_eq_some_iff, Prod.exists]
  constructor
  · rintro ⟨field, value, hmem, rfl⟩
    exact ⟨rfl, hmem⟩
  · rintro ⟨hk, hmem⟩
    exact ⟨x.field, x.value, hmem, by rw [← hk]⟩

theorem nodup_wishTests (q : EntityQuery) : q.wishTests.Nodup := by
  refine List.pairwise_map.2 (q.wanted.sorted.imp fun {e e'} hlt heq => ?_)
  have hname : e.1 = e'.1 := congrArg FieldTest.field heq
  exact String.lt_irrefl _ (hname ▸ hlt)

theorem pairwise_place_testsIn (s : Schema) (q : EntityQuery) :
    (q.testsIn s).Pairwise (s.place · < s.place ·) := by
  unfold testsIn
  cases he : s.entity? q.kind with
  | none => exact .nil
  | some e =>
    have hfields := (Schema.wellFormed_of_entity? he).pairwise_idxOf.filter fun f => f.searchable
    refine hfields.filterMap _ fun f f' hlt x hx x' hx' => ?_
    obtain ⟨v, -, rfl⟩ := Option.map_eq_some_iff.1 hx
    obtain ⟨v', -, rfl⟩ := Option.map_eq_some_iff.1 hx'
    simpa [Schema.place, he] using hlt

theorem nodup_places (s : Schema) (q : EntityQuery) : ((q.testsIn s).map s.place).Nodup :=
  List.pairwise_map.2 ((q.pairwise_place_testsIn s).imp Nat.ne_of_lt)

theorem Fits.testsIn_perm (h : q.Fits s) : (q.testsIn s).Perm q.wishTests := by
  have hnodup : (q.testsIn s).Nodup := (q.nodup_places s).of_map
  refine (List.perm_ext_iff_of_nodup hnodup q.nodup_wishTests).2 fun x => ?_
  rw [h.mem_testsIn_iff, mem_wishTests_iff]

theorem Fits.testsIn_eq (h : q.Fits s) : q.testsIn s = q.wishTests.mergeSort (s.place · ≤ s.place ·) :=
  (mergeSort_eq_of_pairwise_lt h.testsIn_perm (q.pairwise_place_testsIn s)).symm

end EntityQuery

namespace Search
variable {s : Schema} {t : Search} {p : Predicate}

/-- The tests of the predicate are the wishes of the queries from left to right, those of each query sorted
by the places of the fields, of which no two are equal. -/
theorem tests_eq_sorted_wishes (h : t.compile s = .ok p) :
    p.tests = t.queries.flatMap (fun q => q.wishTests.mergeSort (s.place · ≤ s.place ·)) ∧
      ∀ q ∈ t.queries, (q.wishTests.map s.place).Nodup := by
  have hfits : ∀ q ∈ t.queries, q.Fits s := (exists_compile_iff t).1 ⟨p, h⟩
  constructor
  · rw [tests_compile t h, List.flatMap_def, List.flatMap_def]
    exact congrArg List.flatten (List.map_congr_left fun q hq => (hfits q hq).testsIn_eq)
  · intro q hq
    exact ((hfits q hq).testsIn_perm.map s.place).nodup_iff.1 (q.nodup_places s)

/-- Companies of a name, or all but a user of some fields, which are not given in the order of the schema. -/
def acmeOrNotDoe : Search :=
  .or [
    .and [.entity ((EntityQuery.ofKind "Company").set "name" (.string "Acme"))],
    .not (.entity ((((EntityQuery.ofKind "User").set "email" (.string "doe@acme")).set "company_id"
      (.int 4)).set "id" (.int 7)))]

theorem tests_acmeOrNotDoe :
    ∃ p, acmeOrNotDoe.compile .usersAndCompanies = .ok p ∧
      p.tests = acmeOrNotDoe.queries.flatMap
        (fun q => q.wishTests.mergeSort (Schema.usersAndCompanies.place · ≤ Schema.usersAndCompanies.place ·)) ∧
      p.tests.map FieldTest.field = ["name", "id", "email", "company_id"] ∧
      (acmeOrNotDoe.queries.flatMap EntityQuery.wishTests).map FieldTest.field =
        ["name", "company_id", "email", "id"] := by
  have h : acmeOrNotDoe.compile .usersAndCompanies = .ok (.or [
      .test ⟨"Company", "name", .string "Acme"⟩,
      .not (.and [.test ⟨"User", "id", .int 7⟩, .test ⟨"User", "email", .string "doe@acme"⟩,
        .test ⟨"User", "company_id", .int 4⟩])]) := by
    decide +kernel
  exact ⟨_, h, (tests_eq_sorted_wishes h).1, rfl, by decide +kernel⟩

end Search

end EntitySearch
