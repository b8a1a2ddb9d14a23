import EntitySearch.Proofs.Search.Fits

/-!
# Fields that are not searchable

Leaving the hidden fields of a schema out (`Schema.visible`) changes nothing for searches, faults included, so a
hidden field cannot be told from one that is not declared (`Engine.compile_eq_of_visible_eq`). The grammar picks the
searchable fields before it looks a name up, the compiler afterwards; both agree since the fields of an entity have
different names.
-/

namespace EntitySearch

namespace Entity
variable {e : Entity}

def visible (e : Entity) : Entity := { e with fields := e.searchableFields }

@[simp] theorem name_visible : e.visible.name = e.name := rfl

@[simp] theorem searchableFields_visible : e.visible.searchableFields = e.searchableFields := by
  simp [visible, searchableFields]

theorem WellFormed.visible (h : e.WellFormed) : e.visible.WellFormed where
  named := h.named
  nodup := h.nodup_searchable
  unreserved f hf := h.unreserved f (List.mem_filter.1 hf).1

theorem WellFormed.searchableField?_visible (h : e.WellFormed) (name : String) :
    e.visible.searchableField? name = e.searchableField? name := by
  refine Option.ext fun f => ?_
  rw [h.visible.searchableField?_eq_some_iff, searchableFields_visible, h.searchableField?_eq_some_iff]

end Entity

theorem Form.ofEntity_visible (e : Entity) : ofEntity e.visible = ofEntity e := by
  rw [ofEntity, Entity.searchableFields_visible]
  rfl

namespace Schema
variable {s s' : Schema}

def visible (s : Schema) : Schema where
  entities := s.entities.map Entity.visible
  faultless := by
    refine Entity.fault?_eq_none_iff.2 ⟨?_, fun e he => ⟨by simp, ?_⟩⟩
    · rw [List.map_map]
      exact s.nodup_names
    · obtain ⟨e, hmem, rfl⟩ := List.mem_map.1 he
      exact (wellFormed hmem).visible

theorem entity?_visible (s : Schema) (name : String) :
    s.visible.entity? name = (s.entity? name).map Entity.visible :=
  List.find?_map

theorem visible_eq_iff :
    s.visible = s'.visible ↔ s.entities.map Entity.visible = s'.entities.map Entity.visible := by
  rw [visible, visible, mk.injEq]

end Schema

namespace EntityQuery
variable {s : Schema} {q : EntityQuery} {e : Entity}

theorem wishError?_visible (h : e.WellFormed) (field : String) (v : Scalar) :
    wishError? e.visible field v = wishError? e field v := by
  rw [wishError?, wishError?, h.searchableField?_visible]
  rfl

theorem tests_visible : q.tests e.visible = q.tests e := by
  rw [tests, tests, Entity.searchableFields_visible]

theorem compile_visible (s : Schema) (q : EntityQuery) : q.compile s.visible = q.compile s := by
  rw [compile, compile, Schema.entity?_visible]
  cases he : s.entity? q.kind with
  | none => rfl
  | some e =>
    simp only [Option.map_some, wishError?_visible (Schema.wellFormed_of_entity? he), tests_visible]

end EntityQuery

namespace Search

mutual

theorem compile_visible (s : Schema) (t : Search) : t.compile s.visible = t.compile s := by
  cases t with
  | not child => rw [compile, compile, compile_visible s child]
  | and ts => rw [compile, compile, compileList_visible s ts]
  | or ts => rw [compile, compile, compileList_visible s ts]
  | entity q => exact q.compile_visible s

theorem compileList_visible (s : Schema) (ts : List Search) :
    compileList s.visible ts = compileList s ts := by
  cases ts with
  | nil => rfl
  | cons t ts => rw [compileList, compileList, compile_visible s t, compileList_visible s ts]

end

end Search

namespace Engine
variable {g g' : Engine}

/-- The grammar only knows the searchable fields. -/
theorem grammar_eq_of_visible_eq (h : g.schema.visible = g'.schema.visible) :
    g.grammar = g'.grammar := by
  have hforms (s : Schema) : s.entities.map Form.ofEntity = s.visible.entities.map Form.ofEntity := by
    rw [Schema.visible, List.map_map]
    exact List.map_congr_left fun e _ => (Form.ofEntity_visible e).symm
  have heq : g.grammar.forms = g'.grammar.forms := by
    rw [g.forms_eq, g'.forms_eq, hforms g.schema, hforms g'.schema, h]
  cases hg : g.grammar
  cases hg' : g'.grammar
  simpa [hg, hg'] using heq

/-- Two engines with one limit whose schemas list the same entities with the same searchable fields, each
in the same order, cannot be told apart by payloads or searches, however their hidden fields differ. -/
theorem compile_eq_of_visible_eq (hlimit : g.maxDepth = g'.maxDepth)
    (h : g.schema.entities.map Entity.visible = g'.schema.entities.map Entity.visible) :
    (∀ payload, g.compile payload = g'.compile payload) ∧
      ∀ t, g.compileSearch t = g'.compileSearch t := by
  have hvisible : g.schema.visible = g'.schema.visible := Schema.visible_eq_iff.2 h
  have hsearch (t : Search) : g.compileSearch t = g'.compileSearch t := by
    rw [compileSearch, compileSearch, ← t.compile_visible g.schema, hvisible, t.compile_visible g'.schema]
  have hresolve (payload : Json) : g.resolve payload = g'.resolve payload := by
    rw [resolve, resolve, hlimit, grammar_eq_of_visible_eq hvisible]
  refine ⟨fun payload => ?_, hsearch⟩
  simp only [compile, hresolve, hsearch]

/-- Users and companies, with the password declared first and as a number, and no address. -/
def usersWithPins (maxDepth : Option Nat) : Engine :=
  ofNodup
    { entities := [
        ⟨"User", [
          ⟨"hashed_password", .int64, false⟩,
          ⟨"id", .int64, true⟩,
          ⟨"first_name", .varchar, true⟩,
          ⟨"last_name", .varchar, true⟩,
          ⟨"email", .varchar, true⟩,
          ⟨"company_id", .int64, true⟩]⟩,
        ⟨"Company", [
          ⟨"id", .int64, true⟩,
          ⟨"name", .varchar, true⟩]⟩]
      faultless := by decide }
    maxDepth (by decide)

/-- A payload that both accept, the fault of one that asks for the password, and the error of a search that
does. -/
theorem compile_usersWithPins :
    (usersAndCompanies (some 2)).maxDepth = (usersWithPins (some 2)).maxDepth ∧
      (usersAndCompanies (some 2)).schema.entities.map Entity.visible =
        (usersWithPins (some 2)).schema.entities.map Entity.visible ∧
      (usersWithPins (some 2)).compile (.object [
          ("type", .string "Not"),
          ("child", .object [
            ("last_name", .string "Doe"), ("type", .string "User"), ("id", .number (.ofInt64 7))])]) =
        .ok (.not (.and [.test ⟨"User", "id", .int 7⟩, .test ⟨"User", "last_name", .string "Doe"⟩])) ∧
      (usersWithPins (some 2)).compile (.object [
          ("type", .string "Not"),
          ("child", .object [("type", .string "User"), ("hashed_password", .number (.ofInt64 7))])]) =
        .error (.rejected (.fields (Location.root.member "child") "User"
          [⟨(Location.root.member "child").member "hashed_password",
            .unknownField "User" "hashed_password"⟩])) ∧
      (usersWithPins (some 2)).compileSearch
          (.entity ((EntityQuery.ofKind "User").set "hashed_password" (.int 7))) =
        .error (.unknownField "User" "hashed_password") := by
  have hlimit : (usersAndCompanies (some 2)).maxDepth = (usersWithPins (some 2)).maxDepth := rfl
  have hvisible : (usersAndCompanies (some 2)).schema.entities.map Entity.visible =
      (usersWithPins (some 2)).schema.entities.map Entity.visible := by
    decide
  obtain ⟨hcompile, hsearch⟩ := compile_eq_of_visible_eq hlimit hvisible
  refine ⟨hlimit, hvisible, ?_, ?_, ?_⟩
  · rw [← hcompile]
    decide +kernel
  · rw [← hcompile]
    decide +kernel
  · rw [← hsearch]
    decide +kernel

end Engine

end EntitySearch
