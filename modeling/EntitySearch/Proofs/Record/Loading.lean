import EntitySearch.Proofs.Record.Typed
import EntitySearch.Proofs.Search.NormalForm

/-!
# Loading records

A JSON value is loaded as a record iff it is an object with the tag of an entity and, for fields of the
entity, literals of their types or `null` (`Entity.Accepts`). The record then holds these members and no
others (`Record.Holds`). `Entity.column?` is what a single member gives a column; since the names of members differ, a
column has what is given under its name (`Record.get?_of_setMembers`).
-/

namespace EntitySearch

namespace Entity
variable {e : Entity} {name : String} {value : Json} {v : Scalar}

/-- The members of an object that stands for a record of the entity: its tag, and nothing else but literals
or `null`, each for a field that the entity declares and at its type. -/
structure Accepts (e : Entity) (members : List (String × Json)) : Prop where
  tag : (tagKey, .string e.name) ∈ members
  fields : ∀ name value, (name, value) ∈ members → name ≠ tagKey → ∃ type searchable,
    ⟨name, type, searchable⟩ ∈ e.fields ∧ (value = .null ∨ ∃ v, Scalar.Literal type value v)

/-- The value that a member gives a column. The tag and `null` give none. -/
def column? (e : Entity) (name : String) (value : Json) : Option Scalar :=
  if name = tagKey then none
  else (e.field? name).bind fun f => (Scalar.ofJson? f.type value).filter (· ≠ .null)

theorem column?_eq_some_iff : e.column? name value = some v ↔
    name ≠ tagKey ∧ ∃ f, e.field? name = some f ∧ Scalar.Literal f.type value v := by
  simp [column?, Scalar.literal_iff, Option.bind_eq_some_iff]

end Entity

namespace Record
variable {s : Schema} {e : Entity} {r r' : Record} {members : List (String × Json)} {json : Json}
  {name : String} {v : Scalar}

/-- The columns of the record are what the members say, and `null` where they say nothing. -/
structure Holds (e : Entity) (members : List (String × Json)) (r : Record) : Prop where
  kind : r.kind = e.name
  ne_null : ∀ name v, r.columns.get? name = some v → v ≠ .null
  value : ∀ name value type searchable v, (name, value) ∈ members →
    ⟨name, type, searchable⟩ ∈ e.fields → Scalar.Literal type value v → r.get name = v
  null : ∀ name, (∀ value, (name, value) ∈ members → name = tagKey ∨ value = .null) → r.get name = .null

theorem setMembers_cons_eq_ok_iff {value : Json} {rest : List (String × Json)} :
    setMembers e r ((name, value) :: rest) = .ok r' ↔
      (name ≠ tagKey → ∃ f, e.field? name = some f ∧ (Scalar.ofJson? f.type value).isSome) ∧
        setMembers e ((e.column? name value).elim r (r.set name)) rest = .ok r' := by
  rw [setMembers, Entity.column?]
  by_cases hname : name = tagKey
  · simp [hname]
  rw [if_neg hname, if_neg hname]
  cases e.field? name with
  | none => simp [hname]
  | some f =>
    cases hv : Scalar.ofJson? f.type value with
    | none => simp [hname, hv]
    | some v => cases v <;> simp [hv, Option.filter]

theorem exists_setMembers_iff (r : Record) : (∃ r', setMembers e r members = .ok r') ↔
    ∀ name value, (name, value) ∈ members → name ≠ tagKey →
      ∃ f, e.field? name = some f ∧ (Scalar.ofJson? f.type value).isSome := by
  induction members generalizing r with
  | nil => simp [setMembers]
  | cons m rest ih =>
    obtain ⟨n, w⟩ := m
    simp only [setMembers_cons_eq_ok_iff, exists_and_left, ih, List.mem_cons, Prod.mk.injEq]
    constructor
    · rintro ⟨hhead, htail⟩ name value (⟨rfl, rfl⟩ | hmem)
      · exact hhead
      · exact htail name value hmem
    · intro h
      exact ⟨h n w (.inl ⟨rfl, rfl⟩), fun name value hmem => h name value (.inr hmem)⟩

theorem get?_of_setMembers (hnd : (members.map Prod.fst).Nodup) (h : setMembers e r members = .ok r')
    (name : String) : r'.columns.get? name =
      ((members.lookup name).bind (e.column? name)).or (r.columns.get? name) := by
  induction members generalizing r with
  | nil =>
    cases h
    rfl
  | cons m rest ih =>
    obtain ⟨n, value⟩ := m
    obtain ⟨hn, hnd⟩ := List.nodup_cons.1 hnd
    obtain ⟨-, h⟩ := setMembers_cons_eq_ok_iff.1 h
    rw [ih hnd h, List.lookup_cons]
    by_cases hname : name = n
    · subst hname
      rw [lookup_eq_none_of_notMem hn, beq_self_eq_true]
      show (Option.none).or _ = (e.column? name value).or _
      cases e.column? name value with
      | none => rfl
      | some v => simp [set, FieldMap.get?_insert]
    · rw [beq_eq_false_iff_ne.2 hname]
      cases e.column? n value with
      | none => rfl
      | some v => simp [set, FieldMap.get?_insert, hname]

theorem ofJson_eq_ok_iff : ofJson s json = .ok r ↔ ∃ members e, json = .object members ∧
    members.lookup tagKey = some (.string e.name) ∧ s.entity? e.name = some e ∧
      setMembers e (.ofKind e.name) members = .ok r := by
  constructor
  · intro h
    unfold ofJson at h
    split at h
    · next members =>
      split at h
      · next kind hkind =>
        split at h
        · cases h
        · next e he =>
          obtain rfl := Schema.name_of_entity? he
          exact ⟨members, e, rfl, hkind, he, h⟩
      · cases h
    · cases h
  · rintro ⟨members, e, rfl, hkind, he, h⟩
    simp only [ofJson, hkind, he, h]

theorem accepts_iff (he : e.WellFormed) (hnd : (members.map Prod.fst).Nodup) : e.Accepts members ↔
    members.lookup tagKey = some (.string e.name) ∧ ∃ r, setMembers e (.ofKind e.name) members = .ok r := by
  rw [lookup_eq_some_iff_mem hnd, exists_setMembers_iff]
  have hfield (name : String) (value : Json) :
      (∃ f, e.field? name = some f ∧ (Scalar.ofJson? f.type value).isSome) ↔ ∃ type searchable,
        ⟨name, type, searchable⟩ ∈ e.fields ∧ (value = .null ∨ ∃ v, Scalar.Literal type value v) := by
    rw [← he.exists_field_iff]
    simp only [Scalar.isSome_ofJson?_iff]
  simp only [hfield]
  exact ⟨fun h => ⟨h.tag, h.fields⟩, fun ⟨htag, hfields⟩ => ⟨htag, hfields⟩⟩

theorem exists_ofJson_iff (hd : json.hasDistinctKeys) : (∃ r, ofJson s json = .ok r) ↔
    ∃ e ∈ s.entities, ∃ members, json = .object members ∧ e.Accepts members := by
  constructor
  · rintro ⟨r, h⟩
    obtain ⟨members, e, rfl, hkind, he, hr⟩ := ofJson_eq_ok_iff.1 h
    obtain ⟨hnd, -⟩ := Json.hasDistinctKeys_object_iff.1 hd
    have haccepts := (accepts_iff (Schema.wellFormed_of_entity? he) hnd).2 ⟨hkind, r, hr⟩
    exact ⟨e, (Schema.entity?_eq_some_iff.1 he).1, members, rfl, haccepts⟩
  · rintro ⟨e, he, members, rfl, haccepts⟩
    obtain ⟨hnd, -⟩ := Json.hasDistinctKeys_object_iff.1 hd
    obtain ⟨hkind, r, hr⟩ := (accepts_iff (Schema.wellFormed he) hnd).1 haccepts
    exact ⟨r, ofJson_eq_ok_iff.2 ⟨members, e, rfl, hkind, Schema.entity?_eq_some_iff.2 ⟨he, rfl⟩, hr⟩⟩

theorem get?_eq_some_iff_of_setMembers (hnd : (members.map Prod.fst).Nodup)
    (h : setMembers e (.ofKind e.name) members = .ok r) : r.columns.get? name = some v ↔
      ∃ value, (name, value) ∈ members ∧ e.column? name value = some v := by
  rw [get?_of_setMembers hnd h]
  have hempty : (ofKind e.name).columns.get? name = none := rfl
  rw [hempty, Option.or_none, Option.bind_eq_some_iff]
  simp only [lookup_eq_some_iff_mem hnd]

theorem holds_of_setMembers (he : e.WellFormed) (hnd : (members.map Prod.fst).Nodup)
    (h : setMembers e (.ofKind e.name) members = .ok r) : r.Holds e members where
  kind := ((typed_ofKind e e.name).setMembers h).2
  ne_null name v hv := by
    obtain ⟨value, -, hcolumn⟩ := (get?_eq_some_iff_of_setMembers hnd h).1 hv
    obtain ⟨-, f, -, hliteral⟩ := Entity.column?_eq_some_iff.1 hcolumn
    exact (Scalar.literal_iff.1 hliteral).2
  value name value type searchable v hmem hf hliteral := by
    have hfield : e.field? name = some ⟨name, type, searchable⟩ := he.field?_eq_some_iff.2 ⟨hf, rfl⟩
    have hcolumn : e.column? name value = some v :=
      Entity.column?_eq_some_iff.2 ⟨he.ne_tagKey hfield, _, hfield, hliteral⟩
    rw [get, (get?_eq_some_iff_of_setMembers hnd h).2 ⟨value, hmem, hcolumn⟩, Option.getD_some]
  null name hnone := by
    have hget : r.columns.get? name = none := by
      refine Option.eq_none_iff_forall_ne_some.2 fun v hv => ?_
      obtain ⟨value, hmem, hcolumn⟩ := (get?_eq_some_iff_of_setMembers hnd h).1 hv
      obtain ⟨hname, f, -, hliteral⟩ := Entity.column?_eq_some_iff.1 hcolumn
      obtain ⟨hread, hne⟩ := Scalar.literal_iff.1 hliteral
      obtain rfl : value = .null := (hnone value hmem).resolve_left hname
      exact hne (Option.some.inj hread).symm
    rw [get, hget, Option.getD_none]

theorem isFinite_of_ofJson (hd : json.hasDistinctKeys) (h : ofJson s json = .ok r)
    (hv : r.columns.get? name = some v) : v.isFinite := by
  obtain ⟨members, e, rfl, -, -, hr⟩ := ofJson_eq_ok_iff.1 h
  obtain ⟨value, -, hcolumn⟩ :=
    (get?_eq_some_iff_of_setMembers (Json.hasDistinctKeys_object_iff.1 hd).1 hr).1 hv
  obtain ⟨-, f, -, hliteral⟩ := Entity.column?_eq_some_iff.1 hcolumn
  exact Scalar.isFinite_of_ofJson? (Scalar.literal_iff.1 hliteral).1

/-! ### Reading back what is written -/

theorem toJson_eq (h : r.columns.get? tagKey = none) : r.toJson = .object (r.columns.tagged r.kind) :=
  congrArg Json.object (r.columns.foldl_put_eq_tagged h r.kind)

theorem lookup_tagged_of_ne (hname : name ≠ tagKey) :
    (r.columns.tagged r.kind).lookup name = (r.columns.get? name).map Scalar.toJson := by
  rw [FieldMap.tagged, List.lookup_cons, beq_eq_false_iff_ne.2 hname]
  exact lookup_map_snd Scalar.toJson r.columns.entries name

theorem Typed.get?_tagKey (h : r.Typed e) (he : e.WellFormed) : r.columns.get? tagKey = none := by
  refine Option.eq_none_iff_forall_ne_some.2 fun v hv => ?_
  obtain ⟨f, hf, -⟩ := h _ _ hv
  exact he.ne_tagKey hf rfl

/-- A column without infinities and NaN is written as a member that gives it again. -/
theorem Typed.column?_toJson (h : r.Typed e) (he : e.WellFormed) (hv : r.columns.get? name = some v)
    (hfinite : v.isFinite) : e.column? name v.toJson = some v := by
  obtain ⟨f, hf, htype⟩ := h _ _ hv
  refine Entity.column?_eq_some_iff.2 ⟨he.ne_tagKey hf, f, hf, Scalar.literal_iff.2 ⟨?_, ?_⟩⟩
  · rw [Scalar.ofJson?_toJson htype, if_pos hfinite]
  · rintro rfl
    cases htype

theorem exists_setMembers_tagged (h : r.Typed e) :
    ∃ r', setMembers e (.ofKind e.name) (r.columns.tagged r.kind) = .ok r' := by
  refine (exists_setMembers_iff _).2 fun name value hmem hname => ?_
  have hmem : (name, value) ∈ r.columns.entries.map fun e => (e.1, e.2.toJson) :=
    (List.mem_cons.1 hmem).resolve_left fun h => hname (congrArg Prod.fst h)
  obtain ⟨⟨n, v⟩, hcolumn, heq⟩ := List.mem_map.1 hmem
  cases heq
  obtain ⟨f, hf, htype⟩ := h n v (r.columns.get?_eq_some_iff.2 hcolumn)
  refine ⟨f, hf, ?_⟩
  rw [Scalar.ofJson?_toJson htype]
  rfl

theorem columns_of_setMembers_tagged (h : r.Typed e) (he : e.WellFormed)
    (hfinite : ∀ name v, r.columns.get? name = some v → v.isFinite)
    (hr' : setMembers e (.ofKind e.name) (r.columns.tagged r.kind) = .ok r') : r'.columns = r.columns := by
  have htag := h.get?_tagKey he
  refine FieldMap.ext_get? fun name => ?_
  rw [get?_of_setMembers (r.columns.nodup_tagged htag r.kind) hr' name]
  show (Option.or _ none) = _
  rw [Option.or_none]
  by_cases hn : name = tagKey
  · subst hn
    rw [htag]
    exact Option.bind_eq_none_iff.2 fun _ _ => if_pos rfl
  · rw [lookup_tagged_of_ne hn]
    cases hv : r.columns.get? name with
    | none => rfl
    | some v => exact h.column?_toJson he hv (hfinite name v hv)

/-- A record that fits the schema is loaded from what it is written as. No column has the name of the tag,
which would be lost. -/
theorem ofJson_toJson (h : r.Fits s) (hfinite : ∀ name v, r.columns.get? name = some v → v.isFinite) :
    ofJson s r.toJson = .ok r := by
  obtain ⟨e, he, (htyped : r.Typed e)⟩ := h
  have hwf := Schema.wellFormed_of_entity? he
  have hname : e.name = r.kind := Schema.name_of_entity? he
  obtain ⟨r', hr'⟩ := exists_setMembers_tagged htyped
  have hkind : r'.kind = r.kind := ((typed_ofKind e e.name).setMembers hr').2.trans hname
  have hcolumns : r'.columns = r.columns := columns_of_setMembers_tagged htyped hwf hfinite hr'
  obtain rfl : r' = r := by
    cases r
    cases r'
    simp_all
  rw [toJson_eq (htyped.get?_tagKey hwf)]
  exact ofJson_eq_ok_iff.2 ⟨_, e, rfl, by simp [FieldMap.tagged, hname], hname ▸ he, hr'⟩

/-! ### Lists -/

theorem ofItems_eq_ok_iff {index : Nat} {items : List Json} {records : List Record} :
    ofItems s index items = .ok records ↔
      List.Forall₂ (fun item r => ofJson s item = .ok r) items records := by
  induction items generalizing index records with
  | nil => simp [ofItems, eq_comm]
  | cons item rest ih =>
    rw [ofItems, List.forall₂_cons_left_iff]
    cases ofJson s item with
    | error e => simp
    | ok r => simp [map_eq_ok_iff, ih, @eq_comm _ records]

theorem ofItems_eq_error_iff {index : Nat} {items : List Json} {error : RecordsError} :
    ofItems s index items = .error error ↔ ∃ before item after cause, items = before ++ item :: after ∧
      (∀ i ∈ before, ∃ r, ofJson s i = .ok r) ∧ ofJson s item = .error cause ∧
        error = .item (index + before.length) cause := by
  induction items generalizing index with
  | nil => simp [ofItems]
  | cons item rest ih =>
    rw [ofItems]
    constructor
    · intro h
      cases hitem : ofJson s item with
      | error cause =>
        rw [hitem] at h
        cases h
        exact ⟨[], item, rest, cause, rfl, by simp, hitem, rfl⟩
      | ok r =>
        rw [hitem] at h
        obtain ⟨before, bad, after, cause, rfl, hbefore, hbad, rfl⟩ := ih.1 (map_eq_error_iff.1 h)
        refine ⟨item :: before, bad, after, cause, rfl, ?_, hbad, ?_⟩
        · exact List.forall_mem_cons.2 ⟨⟨r, hitem⟩, hbefore⟩
        · rw [List.length_cons, Nat.add_right_comm, Nat.add_assoc]
    · rintro ⟨before, bad, after, cause, hsplit, hbefore, hbad, rfl⟩
      cases before with
      | nil =>
        cases hsplit
        rw [hbad]
        rfl
      | cons first before =>
        obtain ⟨rfl, rfl⟩ := List.cons.inj hsplit
        obtain ⟨⟨r, hr⟩, hbefore⟩ := List.forall_mem_cons.1 hbefore
        rw [hr]
        refine map_eq_error_iff.2 (ih.2 ⟨before, bad, after, cause, rfl, hbefore, hbad, ?_⟩)
        rw [List.length_cons, Nat.add_right_comm, Nat.add_assoc]

/-- A value is loaded iff it is an object that an entity of the schema accepts. The record holds what the
members say, and is loaded again from what it is written as. A list is loaded iff each of its items is, in
order; otherwise the error is that of the first item that is not, under its index. -/
theorem loads_accepted_members (s : Schema) (json : Json) :
    (json.hasDistinctKeys →
      ((∃ r, ofJson s json = .ok r) ↔
        ∃ e ∈ s.entities, ∃ members, json = .object members ∧ e.Accepts members) ∧
      ∀ r, ofJson s json = .ok r →
        (∃ e ∈ s.entities, ∃ members, json = .object members ∧ e.Accepts members ∧ r.Holds e members) ∧
        ofJson s r.toJson = .ok r) ∧
    (∀ records, listOfJson s json = .ok records ↔ ∃ items, json = .array items ∧
      List.Forall₂ (fun item r => ofJson s item = .ok r) items records) ∧
    ∀ error, listOfJson s json = .error error ↔ json.isArray = false ∧ error = .notAnArray ∨
      ∃ before item after cause, json = .array (before ++ item :: after) ∧
        (∀ i ∈ before, ∃ r, ofJson s i = .ok r) ∧ ofJson s item = .error cause ∧
        error = .item before.length cause ∧
        error.text = "Invalid record #" ++ natText before.length ++ ": " ++ cause.message := by
  refine ⟨fun hd => ⟨exists_ofJson_iff hd, fun r h => ⟨?_, ?_⟩⟩, fun records => ?_, fun error => ?_⟩
  · obtain ⟨members, e, rfl, hkind, he, hr⟩ := ofJson_eq_ok_iff.1 h
    obtain ⟨hnd, -⟩ := Json.hasDistinctKeys_object_iff.1 hd
    have hwf := Schema.wellFormed_of_entity? he
    exact ⟨e, (Schema.entity?_eq_some_iff.1 he).1, members, rfl, (accepts_iff hwf hnd).2 ⟨hkind, r, hr⟩,
      holds_of_setMembers hwf hnd hr⟩
  · exact ofJson_toJson (fits_of_ofJson h) fun name v => isFinite_of_ofJson hd h
  · cases json with
    | array items => simp [listOfJson, ofItems_eq_ok_iff]
    | _ => simp [listOfJson]
  · cases json with
    | array items =>
      rw [listOfJson, ofItems_eq_error_iff]
      constructor
      · rintro ⟨before, item, after, cause, rfl, hbefore, hitem, rfl⟩
        rw [Nat.zero_add]
        exact .inr ⟨before, item, after, cause, rfl, hbefore, hitem, rfl, rfl⟩
      · rintro (⟨harray, -⟩ | ⟨before, item, after, cause, hsplit, hbefore, hitem, rfl, -⟩)
        · cases harray
        · exact ⟨before, item, after, cause, Json.array.inj hsplit, hbefore, hitem, by rw [Nat.zero_add]⟩
    | _ => simp [listOfJson, Json.isArray, eq_comm]

/-- A book with a price that is written as an integer, and with a field that cannot be searched. -/
def firstEdition : Json :=
  .object [
    ("isbn", .string "1"),
    ("type", .string "Book"),
    ("pages", .null),
    ("price", .number (.ofInt64 12)),
    ("secret", .string "pulp")]

/-- A book with a text for the number of pages. -/
def miscounted : Json := .object [("type", .string "Book"), ("pages", .string "many")]

/-- The price becomes a double. A list is refused for the book that is not one, under its index. -/
theorem loads_firstEdition : firstEdition.hasDistinctKeys ∧ ∃ r,
    ofJson (Engine.books none).schema firstEdition = .ok r ∧ r.get "price" = .float (.ofInt 12) ∧
      r.get "pages" = .null ∧ r.get "secret" = .string "pulp" ∧
      ofJson (Engine.books none).schema r.toJson = .ok r ∧
      listOfJson (Engine.books none).schema (.array [firstEdition, firstEdition]) = .ok [r, r] ∧
      listOfJson (Engine.books none).schema (.array [firstEdition, miscounted]) =
        .error (.item 1 (.wrongType "Book" "pages" .int64 (.string "many"))) := by
  have hd : firstEdition.hasDistinctKeys := by decide
  obtain ⟨r, hr⟩ : ∃ r, ofJson (Engine.books none).schema firstEdition = .ok r := ⟨_, rfl⟩
  obtain ⟨⟨e, he, members, hmembers, -, hholds⟩, hagain⟩ :=
    ((loads_accepted_members (Engine.books none).schema firstEdition).1 hd).2 r hr
  obtain rfl := List.mem_singleton.1 he
  obtain rfl := Json.object.inj hmembers
  have hprice : r.get "price" = .float (.ofInt 12) :=
    hholds.value "price" (.number (.ofInt64 12)) .float64 true _ (by decide) (by decide) .integral
  have hpages : r.get "pages" = .null := hholds.null "pages" (by simp)
  have hsecret : r.get "secret" = .string "pulp" :=
    hholds.value "secret" (.string "pulp") .varchar false _ (by decide) (by decide) .string
  have hmany : ofJson (Engine.books none).schema miscounted =
      .error (.wrongType "Book" "pages" .int64 (.string "many")) := rfl
  have hlist : listOfJson (Engine.books none).schema (.array [firstEdition, firstEdition]) = .ok [r, r] :=
    ((loads_accepted_members _ _).2.1 _).2 ⟨_, rfl, .cons hr (.cons hr .nil)⟩
  have herror : listOfJson (Engine.books none).schema (.array [firstEdition, miscounted]) =
      .error (.item 1 (.wrongType "Book" "pages" .int64 (.string "many"))) :=
    ((loads_accepted_members _ _).2.2 _).2
      (.inr ⟨[firstEdition], miscounted, [], _, rfl, by simpa using ⟨r, hr⟩, hmany, rfl, rfl⟩)
  exact ⟨hd, r, hr, hprice, hpages, hsecret, hagain, hlist, herror⟩

end Record

end EntitySearch
