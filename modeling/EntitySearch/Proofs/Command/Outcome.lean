import EntitySearch.Proofs.Command.Stages
import EntitySearch.Proofs.Cursor.Stack
import EntitySearch.Proofs.Search.RoundTrip

/-!
# What a run prints

A run compiles the search (`Options.compiled?`) and, if it is asked to, selects records (`Options.selected?`); both
are calculations on the options, the files and the standard input. What is printed is whole parts
(`Options.run_prints_whole_parts`): nothing before the search is compiled, then the predicate, and then all of the
matching records or none of them.
-/

namespace EntitySearch

/-- The records of which the predicate is true among those that the search looks at, if it fails on none
of those. -/
def Search.selection? (t : Search) (p : Predicate) (records : List Record) : Option (List Record) :=
  if ∀ r ∈ records, t.scans r → (p.selects r).isOk then
    some (records.filter fun r => t.scans r ∧ (p.selects r).toOption = some true)
  else none

theorem Search.run_toOption (t : Search) (p : Predicate) (records : List Record) :
    (t.run p records).toOption = t.selection? p records := by
  rw [run_eq, selection?]
  split
  · next h =>
    have hselects : ∀ r ∈ records.filter t.scans,
        p.selects r = .ok ((p.selects r).toOption = some true) := by
      intro r hmem
      obtain ⟨hmem, hscans⟩ := List.mem_filter.1 hmem
      have hok := h r hmem hscans
      cases hr : p.selects r with
      | error e =>
        rw [hr] at hok
        cases hok
      | ok b => cases b <;> rfl
    rw [gather_of_ok hselects, List.filter_filter]
    refine congrArg some (List.filter_congr fun r _ => ?_)
    rw [Bool.decide_and, Bool.decide_eq_true, Bool.and_comm]
  · next h =>
    cases hg : (gather p.selects (records.filter t.scans)).1 with
    | error e => rfl
    | ok given =>
      refine absurd (fun r hmem hscans => ?_) h
      exact isOk_of_gather_eq_ok hg r (List.mem_filter.2 ⟨hmem, hscans⟩)

/-- The predicate as it is printed, in one line and as JSON. -/
def Predicate.heading (p : Predicate) : String := p.text ++ "\n" ++ p.toJson.pretty ++ "\n"

/-- Records as they are printed, one in a line. -/
def Record.lines : List Record → String
  | [] => ""
  | r :: rest => r.toJson.compact ++ "\n" ++ lines rest

namespace Options
variable {env : Environment} {o : Options} {engine : Engine} {search : Search} {p : Predicate}

/-- The predicate of a search with the engine and the search itself, if there is nothing wrong with the
schema and the payload. -/
def compiled? (o : Options) (env : Environment) : Option (Engine × Search × Predicate) := do
  let schema ← env.schema? o.schema
  let engine ← (Engine.ofSchema schema o.maxDepth).toOption
  let payload ← env.json? env.stdin o.payload
  let search ← (engine.resolve payload).toOption
  let p ← (engine.compileSearch search).toOption
  return (engine, search, p)

/-- The records that the search selects, if they are asked for and there is nothing wrong with any of them.
The payload has been read before. -/
def selected? (o : Options) (env : Environment) (engine : Engine) (search : Search) (p : Predicate) :
    Option (List Record) := do
  let path ← o.records
  let json ← env.json? (Environment.inputAfter env.stdin o.payload) path
  let records ← (Record.listOfJson engine.schema json).toOption
  search.selection? p records

/-- Nothing that is asked for fails. -/
def Succeeds (o : Options) (env : Environment) : Prop :=
  ∃ engine search p, o.compiled? env = some (engine, search, p) ∧
    (o.records = none ∨ (o.selected? env engine search p).isSome)

open Stage

theorem computes_compileSearch (o : Options) (env : Environment) :
    Computes env o o.compileSearch env.stdin (o.compiled? env)
      (Environment.inputAfter env.stdin o.payload) := by
  refine (computes_loadSchema o.schema).bind fun schema _ => Computes.after_log _ _ _ ?_
  refine (computes_buildEngine schema o.maxDepth).bind fun engine _ => ?_
  refine (computes_readJson o.payload _).bind fun payload _ => ?_
  refine (computes_resolve engine payload).bind fun search _ => ?_
  exact (computes_compile engine search).bind fun p _ => computes_pure _ _

theorem computes_selectRecords {path : String} (hr : o.records = some path) (env : Environment)
    (engine : Engine) (search : Search) (p : Predicate) :
    Computes env o (selectRecords engine search p path) (Environment.inputAfter env.stdin o.payload)
      (o.selected? env engine search p)
      (Environment.inputAfter (Environment.inputAfter env.stdin o.payload) path) := by
  have hselect : Computes env o (selectRecords engine search p path)
      (Environment.inputAfter env.stdin o.payload) _ _ :=
    (computes_loadRecords engine path).bind fun records _ => computes_select search p records
  rw [Option.bind_assoc] at hselect
  simp only [Search.run_toOption] at hselect
  unfold selected?
  rw [hr]
  exact hselect

theorem ends_printRecords (records : List Record) (input : Except FileError String) :
    Ends env o (do for r in records do print r.toJson.compact) input (Record.lines records) (.ok ())
      input := by
  induction records with
  | nil => exact ends_pure ()
  | cons r rest ih =>
    simp only [List.forIn_cons, bind_assoc, pure_bind, bind_pure_unit] at ih ⊢
    exact (ends_print _).bind ih

theorem ends_heading {x : Stage Unit} {input left : Except FileError String} {printed : String}
    {result : Except Failure Unit} (h : Ends env o x input printed result left) :
    Ends env o (do print p.text; print p.toJson.pretty; x) input (p.heading ++ printed) result left := by
  have hjson : Ends env o (do print p.toJson.pretty; x) input (p.toJson.pretty ++ "\n" ++ printed)
      result left :=
    (ends_print _).bind h
  have hboth : p.heading ++ printed = p.text ++ "\n" ++ (p.toJson.pretty ++ "\n" ++ printed) := by
    simp only [Predicate.heading, String.append_assoc]
  rw [hboth]
  exact (ends_print _).bind hjson

theorem ends_stages_of_not_compiled (hc : o.compiled? env = none) :
    ∃ failure left, Ends env o o.stages env.stdin "" (.error failure) left := by
  have hcompile := computes_compileSearch o env
  rw [hc] at hcompile
  obtain ⟨failure, left, hfails⟩ := hcompile
  exact ⟨failure, left, hfails.bind_error⟩

/-- Records fail before any of them is printed. -/
theorem ends_stages_of_compiled (hc : o.compiled? env = some (engine, search, p)) : ∃ result left,
    Ends env o o.stages env.stdin (p.heading ++ (o.selected? env engine search p).elim "" Record.lines)
      result left ∧
    (result = .ok () ↔ o.records = none ∨ (o.selected? env engine search p).isSome) := by
  have hcompile := (computes_compileSearch o env).ends hc
  cases hr : o.records with
  | none =>
    have hs : o.selected? env engine search p = none := by rw [selected?, hr]; rfl
    refine ⟨.ok (), Environment.inputAfter env.stdin o.payload,
      hcompile.bind_quiet (ends_heading ?_), by simp⟩
    rw [hr, hs]
    exact ends_pure ()
  | some path =>
    have hselect := computes_selectRecords hr env engine search p
    cases hs : o.selected? env engine search p with
    | none =>
      rw [hs] at hselect
      obtain ⟨failure, left, hfails⟩ := hselect
      refine ⟨.error failure, left, hcompile.bind_quiet (ends_heading ?_), by simp⟩
      rw [hr]
      exact hfails.bind_error
    | some selected =>
      refine ⟨.ok (), Environment.inputAfter (Environment.inputAfter env.stdin o.payload) path,
        hcompile.bind_quiet (ends_heading ?_), by simp⟩
      rw [hr]
      exact (hselect.ends hs).bind_quiet (ends_printRecords selected _)

theorem ends_stages (o : Options) (env : Environment) : ∃ printed result left,
    Ends env o o.stages env.stdin printed result left ∧ (result = .ok () ↔ o.Succeeds env) ∧
    (o.compiled? env = none → printed = "") ∧
    ∀ engine search p, o.compiled? env = some (engine, search, p) →
      printed = p.heading ++ (o.selected? env engine search p).elim "" Record.lines := by
  cases hc : o.compiled? env with
  | none =>
    obtain ⟨failure, left, hends⟩ := ends_stages_of_not_compiled hc
    refine ⟨"", .error failure, left, hends, ⟨nofun, ?_⟩, fun _ => rfl, nofun⟩
    rintro ⟨engine, search, p, hc', -⟩
    rw [hc] at hc'
    cases hc'
  | some compiled =>
    obtain ⟨engine, search, p⟩ := compiled
    obtain ⟨result, left, hends, hresult⟩ := ends_stages_of_compiled hc
    refine ⟨_, result, left, hends, hresult.trans ⟨fun h => ⟨engine, search, p, hc, h⟩, ?_⟩, nofun, ?_⟩
    · rintro ⟨_, _, _, hc', h⟩
      rw [hc] at hc'
      cases hc'
      exact h
    · rintro _ _ _ ⟨⟩
      rfl

theorem ends_stages_of_not_resolved {schema : Schema} {payload : Json} {rejection : Rejection}
    (hschema : env.schema? o.schema = some schema) (hengine : Engine.ofSchema schema o.maxDepth = .ok engine)
    (hpayload : env.json? env.stdin o.payload = some payload)
    (hreject : engine.resolve payload = .error rejection) : ∃ left, Ends env o o.stages env.stdin ""
      (.error (.report (SearchError.rejected rejection).report)) left := by
  have hload : Ends env o (loadSchema o.schema) env.stdin "" (.ok schema) env.stdin :=
    (computes_loadSchema _).ends hschema
  have hbuild : Ends env o (buildEngine schema o.maxDepth) env.stdin "" (.ok engine) env.stdin :=
    (computes_buildEngine _ _).ends (by rw [hengine]; rfl)
  have hread : Ends env o (readJson o.payload "Failed to read search payload") env.stdin "" (.ok payload)
      (Environment.inputAfter env.stdin o.payload) :=
    (computes_readJson _ _).ends hpayload
  refine ⟨Environment.inputAfter env.stdin o.payload, .bind_error (hload.bind_quiet ?_)⟩
  refine (ends_log _ _ _).bind_quiet (hbuild.bind_quiet (hread.bind_quiet ?_))
  exact (ends_resolve_of_error hreject).bind_error

theorem run_of_ends {printed : String} {result : Except Failure Unit} {left : Except FileError String}
    (h : Ends env o o.stages env.stdin printed result left) :
    (o.run env).stdout = printed ∧ ((o.run env).exit = 0 ↔ result = .ok ()) ∧
      ((o.run env).exit = 0 ∨ (o.run env).exit = 1) ∧
      ∀ failure, result = .error failure →
        ∃ log, (env.logging = false → log = "") ∧ (o.run env).stderr = log ++ failure.text := by
  obtain ⟨log, hlog, hrun⟩ := h "" ""
  rw [String.empty_append, String.empty_append] at hrun
  unfold run
  rw [hrun]
  cases result with
  | ok _ => exact ⟨rfl, by simp, .inl rfl, nofun⟩
  | error failure =>
    refine ⟨rfl, by simp, .inr rfl, ?_⟩
    rintro _ ⟨⟩
    exact ⟨log, hlog, rfl⟩

/-- A run prints nothing unless the search is compiled, and behind the predicate it prints nothing but all
of the records that the search selects, if they are asked for and none of them fails. It ends with 0 if
nothing fails and with 1 otherwise; where the payload does not resolve, the report is the end of what goes
to the standard error, and all of it if no log is kept. -/
theorem run_prints_whole_parts (o : Options) (env : Environment) :
    (o.compiled? env = none → (o.run env).stdout = "") ∧
    (∀ engine search p, o.compiled? env = some (engine, search, p) →
      (o.run env).stdout = p.heading ++ (o.selected? env engine search p).elim "" Record.lines) ∧
    ((o.run env).exit = 0 ↔ o.Succeeds env) ∧ ((o.run env).exit = 0 ∨ (o.run env).exit = 1) ∧
    ∀ schema engine payload rejection, env.schema? o.schema = some schema →
      Engine.ofSchema schema o.maxDepth = .ok engine → env.json? env.stdin o.payload = some payload →
      engine.resolve payload = .error rejection →
        ∃ log, (env.logging = false → log = "") ∧
          (o.run env).stderr = log ++ (SearchError.rejected rejection).report.pretty ++ "\n" := by
  obtain ⟨printed, result, left, hends, hresult, hnone, hsome⟩ := ends_stages o env
  obtain ⟨rfl, hexit, hcode, -⟩ := run_of_ends hends
  refine ⟨hnone, hsome, hexit.trans hresult, hcode, ?_⟩
  intro schema engine payload rejection hschema hengine hpayload hreject
  obtain ⟨left, hends⟩ := ends_stages_of_not_resolved hschema hengine hpayload hreject
  obtain ⟨log, hlog, hstderr⟩ := (run_of_ends hends).2.2.2 _ rfl
  refine ⟨log, hlog, ?_⟩
  rw [hstderr, String.append_assoc]
  rfl

/-- Users called Ada or companies called Acme. Of a user by another name it is asked what it is called as a
company, which fails. -/
def adaOrAcme : Search :=
  .or [.entity ((EntityQuery.ofKind "User").set "first_name" (.string "Ada")),
    .entity ((EntityQuery.ofKind "Company").set "name" (.string "Acme"))]

def isAdaOrAcme : Predicate :=
  .or [.test ⟨"User", "first_name", .string "Ada"⟩, .test ⟨"Company", "name", .string "Acme"⟩]

def ada : Record := (Record.ofKind "User").set "first_name" (.string "Ada")

/-- How the predicate is printed, in one line and as JSON. -/
def isAdaOrAcmeText : String :=
  "User.first_name = 'Ada' OR Company.name = 'Acme'\n" ++
  "\x7b\n" ++
  "  \"Or\": [\n" ++
  "    \x7b\n" ++
  "      \"FieldEquals\": \x7b\n" ++
  "        \"entity_kind\": \"User\",\n" ++
  "        \"field\": \"first_name\",\n" ++
  "        \"value\": \"Ada\"\n" ++
  "      \x7d\n" ++
  "    \x7d,\n" ++
  "    \x7b\n" ++
  "      \"FieldEquals\": \x7b\n" ++
  "        \"entity_kind\": \"Company\",\n" ++
  "        \"field\": \"name\",\n" ++
  "        \"value\": \"Acme\"\n" ++
  "      \x7d\n" ++
  "    \x7d\n" ++
  "  ]\n" ++
  "\x7d\n"

/-- The report on a payload that is `null`. -/
def nullReportText : String :=
  "\x7b\n" ++
  "  \"resolve_errors\": [\n" ++
  "    \x7b\n" ++
  "      \"path\": \"$\",\n" ++
  "      \"kind\": \"NotAnObject\",\n" ++
  "      \"message\": \"expected a search node object, received null\"\n" ++
  "    \x7d\n" ++
  "  ]\n" ++
  "\x7d\n"

/-- The payload on the standard input, the records in a file. -/
def desk (payload : Json) (records : List Record) : Environment where
  file path :=
    if path = "records.json" then .ok (Json.array (records.map Record.toJson)).compact else .error .notFound
  stdin := .ok payload.compact
  logging := false

/-- The payload of the standard input for the records of the file. -/
def overDesk : Options := { records := some "records.json" }

/-- The first Ada is not printed where the record behind her fails. -/
theorem run_overDesk :
    ((overDesk.run (desk adaOrAcme.toPayload [ada, .ofKind "Company", ada])).stdout =
        isAdaOrAcmeText ++
        "\x7b\"type\":\"User\",\"first_name\":\"Ada\"\x7d\n" ++
        "\x7b\"type\":\"User\",\"first_name\":\"Ada\"\x7d\n" ∧
      (overDesk.run (desk adaOrAcme.toPayload [ada, .ofKind "Company", ada])).exit = 0) ∧
    ((overDesk.run (desk adaOrAcme.toPayload [ada, .ofKind "User", ada])).stdout = isAdaOrAcmeText ∧
      (overDesk.run (desk adaOrAcme.toPayload [ada, .ofKind "User", ada])).exit = 1) ∧
    (overDesk.run (desk .null [ada])).stdout = "" ∧ (overDesk.run (desk .null [ada])).exit = 1 ∧
      (overDesk.run (desk .null [ada])).stderr = nullReportText := by
  have htext : isAdaOrAcme.text = "User.first_name = 'Ada' OR Company.name = 'Acme'" := by cbv
  have hheading : isAdaOrAcme.heading = isAdaOrAcmeText := by
    rw [Predicate.heading, htext]
    decide +kernel
  have hcompiled (records : List Record) : overDesk.compiled? (desk adaOrAcme.toPayload records) =
      some (.usersAndCompanies none, adaOrAcme, isAdaOrAcme) := by
    show overDesk.compiled? (desk adaOrAcme.toPayload []) = _
    decide +kernel
  refine ⟨?_, ?_, ?_⟩
  · have hselected : overDesk.selected? (desk adaOrAcme.toPayload [ada, .ofKind "Company", ada])
        (.usersAndCompanies none) adaOrAcme isAdaOrAcme = some [ada, ada] := by
      decide +kernel
    obtain ⟨-, hstdout, hexit, -⟩ :=
      run_prints_whole_parts overDesk (desk adaOrAcme.toPayload [ada, .ofKind "Company", ada])
    refine ⟨?_, hexit.2 ⟨_, _, _, hcompiled _, .inr ?_⟩⟩
    · have hlines : Record.lines [ada, ada] = "\x7b\"type\":\"User\",\"first_name\":\"Ada\"\x7d\n" ++
          "\x7b\"type\":\"User\",\"first_name\":\"Ada\"\x7d\n" := by
        decide +kernel
      rw [hstdout _ _ _ (hcompiled _), hselected, hheading, String.append_assoc, ← hlines]
      rfl
    · rw [hselected]
      rfl
  · have hselected : overDesk.selected? (desk adaOrAcme.toPayload [ada, .ofKind "User", ada])
        (.usersAndCompanies none) adaOrAcme isAdaOrAcme = none := by
      decide +kernel
    obtain ⟨-, hstdout, hexit, hcode, -⟩ :=
      run_prints_whole_parts overDesk (desk adaOrAcme.toPayload [ada, .ofKind "User", ada])
    refine ⟨?_, hcode.resolve_left fun hzero => ?_⟩
    · rw [hstdout _ _ _ (hcompiled _), hselected, hheading]
      exact String.append_empty
    · obtain ⟨_, _, _, hc, hrecords | hsome⟩ := hexit.1 hzero
      · cases hrecords
      · cases hc.symm.trans (hcompiled _)
        rw [hselected] at hsome
        cases hsome
  · have hc : overDesk.compiled? (desk .null [ada]) = none := by decide +kernel
    obtain ⟨hstdout, -, hexit, hcode, hstderr⟩ := run_prints_whole_parts overDesk (desk .null [ada])
    refine ⟨hstdout hc, hcode.resolve_left fun hzero => ?_, ?_⟩
    · obtain ⟨_, _, _, hc', -⟩ := hexit.1 hzero
      cases hc.symm.trans hc'
    · obtain ⟨log, hlog, h⟩ := hstderr .usersAndCompanies (.usersAndCompanies none) .null
        (.node ⟨.root, .notAnObject .null⟩) rfl (by decide +kernel) (by decide +kernel) (by decide +kernel)
      rw [h, hlog rfl, String.empty_append]
      decide +kernel

end Options
end EntitySearch
