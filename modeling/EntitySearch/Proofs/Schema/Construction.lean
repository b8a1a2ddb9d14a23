import EntitySearch.Proofs.Search.Dispatch
import Mathlib.Tactic.TFAE

/-!
# Which schemas can be built

A list of entities makes a schema with a grammar iff it is `Entity.Admissible`. The two constructors share this
work, that of the schema looking at the entities and that of the grammar at the tags. A field can then be looked up in
three ways that agree (`Grammar.ofSchema_iff_admissible`).
-/

namespace EntitySearch

/-- The rules for a list of entities from which a schema and its grammar are made. -/
structure Entity.Admissible (entities : List Entity) : Prop where
  wellFormed : ∀ e ∈ entities, e.WellFormed
  nodup : (entities.map Entity.name).Nodup
  no_operator : ∀ e ∈ entities, e.name ∉ ["Not", "Or", "And"]

namespace Schema
variable {entities : List Entity} {s : Schema}

theorem ofEntities_eq_ok_iff : ofEntities entities = .ok s ↔ s.entities = entities := by
  unfold ofEntities
  constructor
  · intro h
    split at h
    · cases h
      rfl
    · cases h
  · rintro rfl
    split
    · rfl
    · next h =>
      rw [s.faultless] at h
      cases h

theorem exists_ofEntities_iff : (∃ s, ofEntities entities = .ok s) ↔
    (entities.map Entity.name).Nodup ∧ ∀ e ∈ entities, e.WellFormed := by
  constructor
  · rintro ⟨s, h⟩
    rw [← ofEntities_eq_ok_iff.1 h]
    exact ⟨s.nodup_names, fun e he => wellFormed he⟩
  · rintro ⟨hnodup, hwf⟩
    have hfaultless : Entity.fault? [] entities = none :=
      Entity.fault?_eq_none_iff.2 ⟨hnodup, fun e he => ⟨by simp, hwf e he⟩⟩
    exact ⟨⟨entities, hfaultless⟩, ofEntities_eq_ok_iff.2 rfl⟩

end Schema

namespace Grammar
variable {g : Grammar} {s : Schema} {tag : String} {form : Form}

theorem form?_eq_some_iff : g.form? tag = some form ↔ form ∈ g.forms ∧ form.tag = tag :=
  find?_key_eq_some_iff Form.tag g.nodup_tags

theorem exists_ofSchema_iff : (∃ g, ofSchema s = .ok g) ↔ ∀ e ∈ s.entities, e.name ∉ ["Not", "Or", "And"] := by
  have htags : (([Form.not, .or, .and] ++ s.entities.map Form.ofEntity).map Form.tag) =
      ["Not", "Or", "And"] ++ s.entities.map Entity.name := by
    simp [Form.tag, Form.ofEntity]
  have hnodup : (["Not", "Or", "And"] ++ s.entities.map Entity.name).Nodup ↔
      ∀ e ∈ s.entities, e.name ∉ ["Not", "Or", "And"] := by
    rw [List.nodup_append', List.disjoint_right]
    simp [s.nodup_names]
  rw [← hnodup, ← htags]
  constructor
  · rintro ⟨g, h⟩
    exact ofForms_eq_ok_iff.1 h ▸ g.nodup_tags
  · intro h
    exact ⟨⟨_, h⟩, ofForms_eq_ok_iff.2 rfl⟩

theorem form?_of_entity? {e : Entity} (h : ofSchema s = .ok g) (he : s.entity? tag = some e) :
    g.form? tag = some (.ofEntity e) :=
  form?_eq_some_iff.2 ⟨Engine.ofEntity_mem_forms (g := ⟨s, g, h, none⟩) he, Schema.name_of_entity? he⟩

end Grammar

namespace Entity
variable {e : Entity}

theorem WellFormed.searchableField?_type_iff (h : e.WellFormed) {field : String} {type : ScalarType} :
    (e.searchableField? field).map Field.type = some type ↔ ⟨field, type, true⟩ ∈ e.fields := by
  have hsearchable : (∃ f, e.searchableField? field = some f ∧ f.type = type) ↔
      ∃ t, ⟨field, t, true⟩ ∈ e.fields ∧ t = type := h.exists_searchable_iff (· = type)
  simpa using hsearchable

theorem WellFormed.shape_field?_iff (h : e.WellFormed) {field : String} {type : ScalarType} :
    ((Form.ofEntity e).field? field).map FormField.shape = some (.scalar type) ↔
      (e.searchableField? field).map Field.type = some type := by
  rw [Form.field?_ofEntity field h]
  cases e.searchableField? field <;> simp

end Entity

namespace Grammar

/-- The schema and its grammar can be built iff the list is admissible, and then the lookups by kind and field
all tell what the list says. -/
theorem ofSchema_iff_admissible (entities : List Entity) :
    ((∃ schema grammar, Schema.ofEntities entities = .ok schema ∧ ofSchema schema = .ok grammar) ↔
      Entity.Admissible entities) ∧
    ∀ schema grammar, Schema.ofEntities entities = .ok schema → ofSchema schema = .ok grammar →
      ∀ kind ∈ entities.map Entity.name, ∃ e, schema.entity? kind = some e ∧
        grammar.form? kind = some (.ofEntity e) ∧ ∀ field type, [
          ((Form.ofEntity e).field? field).map FormField.shape = some (.scalar type),
          (e.searchableField? field).map Field.type = some type,
          ∃ e' ∈ entities, e'.name = kind ∧ ⟨field, type, true⟩ ∈ e'.fields].TFAE := by
  constructor
  · constructor
    · rintro ⟨schema, grammar, hschema, hgrammar⟩
      obtain ⟨hnodup, hwf⟩ := Schema.exists_ofEntities_iff.1 ⟨schema, hschema⟩
      obtain rfl := Schema.ofEntities_eq_ok_iff.1 hschema
      exact ⟨hwf, hnodup, exists_ofSchema_iff.1 ⟨grammar, hgrammar⟩⟩
    · intro h
      obtain ⟨schema, hschema⟩ := Schema.exists_ofEntities_iff.2 ⟨h.nodup, h.wellFormed⟩
      obtain rfl := Schema.ofEntities_eq_ok_iff.1 hschema
      obtain ⟨grammar, hgrammar⟩ := exists_ofSchema_iff.2 h.no_operator
      exact ⟨schema, grammar, hschema, hgrammar⟩
  · intro schema grammar hschema hgrammar kind hkind
    obtain rfl := Schema.ofEntities_eq_ok_iff.1 hschema
    obtain ⟨e, hmem, hname⟩ := List.mem_map.1 hkind
    have he : schema.entity? kind = some e := Schema.entity?_eq_some_iff.2 ⟨hmem, hname⟩
    have hwf : e.WellFormed := Schema.wellFormed hmem
    refine ⟨e, he, form?_of_entity? hgrammar he, fun field type => ?_⟩
    tfae_have 1 ↔ 2 := hwf.shape_field?_iff
    tfae_have 2 ↔ 3 := hwf.searchableField?_type_iff.trans (Schema.declares_iff he).symm
    tfae_finish

/-- The three lookups for users, whose passwords are hidden. -/
theorem ofSchema_usersAndCompanies :
    Schema.ofEntities Schema.usersAndCompanies.entities = .ok .usersAndCompanies ∧
      ofSchema .usersAndCompanies = .ok (Engine.usersAndCompanies none).grammar ∧
      "User" ∈ Schema.usersAndCompanies.entities.map Entity.name ∧
      ∃ e, Schema.usersAndCompanies.entity? "User" = some e ∧
        (Engine.usersAndCompanies none).grammar.form? "User" = some (.ofEntity e) ∧ ∀ field type, [
          ((Form.ofEntity e).field? field).map FormField.shape = some (.scalar type),
          (e.searchableField? field).map Field.type = some type,
          ∃ e' ∈ Schema.usersAndCompanies.entities, e'.name = "User" ∧ ⟨field, type, true⟩ ∈ e'.fields].TFAE := by
  have hschema : Schema.ofEntities Schema.usersAndCompanies.entities = .ok .usersAndCompanies :=
    Schema.ofEntities_eq_ok_iff.2 rfl
  have hgrammar := (Engine.usersAndCompanies none).ofSchema_eq
  have hkind : "User" ∈ Schema.usersAndCompanies.entities.map Entity.name := by decide
  exact ⟨hschema, hgrammar, hkind, (ofSchema_iff_admissible _).2 _ _ hschema hgrammar _ hkind⟩

end Grammar

end EntitySearch
