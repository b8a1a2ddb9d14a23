import EntitySearch.Command.Run

/-!
# How stages end

`Stage.Ends` says what a stage makes of a session: what it reads, what it prints, and whether it gives a value or
fails. Its log is left open, but for there being none if none is kept. Most stages print nothing and depend on the
environment, the options and the input alone (`Stage.Computes`), so that stages one after the other are a
calculation with options (`Stage.Computes.bind`).
-/

namespace EntitySearch

/-- The text at a path, which may be what is left of the standard input. -/
def Environment.text (env : Environment) (input : Except FileError String) (path : String) :
    Except FileError String :=
  if path = "-" then input else env.file path

/-- What is left of the standard input once the text at a path is read. -/
def Environment.inputAfter (input : Except FileError String) (path : String) : Except FileError String :=
  if path = "-" then .ok "" else input

def Environment.json? (env : Environment) (input : Except FileError String) (path : String) :
    Option Json := do
  let text ← (env.text input path).toOption
  (Json.parse text).toOption

/-- The schema in a file, or that of users and companies if no file is named. -/
def Environment.schema? (env : Environment) : Option String → Option Schema
  | none => some .usersAndCompanies
  | some path => do
    let text ← (env.file path).toOption
    (Schema.parse text).toOption

namespace Stage
variable {env : Environment} {o : Options} {α β : Type} {x : Stage α} {f : α → Stage β}
  {input left rest : Except FileError String} {printed later : String} {a : α} {failure : Failure}

/-- Started with the input, the stage has printed the text when it ends with the result, and the rest of
the input is left. -/
def Ends (env : Environment) (o : Options) (x : Stage α) (input : Except FileError String)
    (printed : String) (result : Except Failure α) (left : Except FileError String) : Prop :=
  ∀ output errors, ∃ log, (env.logging = false → log = "") ∧
    x.run.run ⟨env, o, input, output, errors⟩ = (result, ⟨env, o, left, output ++ printed, errors ++ log⟩)

theorem run_bind_of_ok {s s' : Session} (h : x.run.run s = (.ok a, s')) :
    (x >>= f).run.run s = (f a).run.run s' := by
  rw [ExceptT.run_bind, StateT.run_bind, h]
  rfl

theorem run_bind_of_error {s s' : Session} (h : x.run.run s = (.error failure, s')) :
    (x >>= f).run.run s = (.error failure, s') := by
  rw [ExceptT.run_bind, StateT.run_bind, h]
  rfl

theorem Ends.bind {result : Except Failure β} (hx : Ends env o x input printed (.ok a) left)
    (hf : Ends env o (f a) left later result rest) :
    Ends env o (x >>= f) input (printed ++ later) result rest := by
  intro output errors
  obtain ⟨log, hlog, hx⟩ := hx output errors
  obtain ⟨log', hlog', hf⟩ := hf (output ++ printed) (errors ++ log)
  refine ⟨log ++ log', fun hoff => ?_, ?_⟩
  · rw [hlog hoff, hlog' hoff, String.append_empty]
  · rw [run_bind_of_ok hx, hf, String.append_assoc, String.append_assoc]

theorem Ends.bind_error (hx : Ends env o x input printed (.error failure) left) :
    Ends env o (x >>= f) input printed (.error failure) left := by
  intro output errors
  obtain ⟨log, hlog, hx⟩ := hx output errors
  exact ⟨log, hlog, run_bind_of_error hx⟩

/-- Where the first of two stages prints nothing, the second one prints all. -/
theorem Ends.bind_quiet {result : Except Failure β} (hx : Ends env o x input "" (.ok a) left)
    (hf : Ends env o (f a) left printed result rest) : Ends env o (x >>= f) input printed result rest := by
  have h := hx.bind hf
  rwa [String.empty_append] at h

theorem ends_pure (a : α) : Ends env o (pure a) input "" (.ok a) input := by
  intro output errors
  exact ⟨"", fun _ => rfl, by rw [String.append_empty, String.append_empty]; rfl⟩

theorem ends_throw (failure : Failure) :
    Ends env o (throw failure : Stage α) input "" (.error failure) input := by
  intro output errors
  exact ⟨"", fun _ => rfl, by rw [String.append_empty, String.append_empty]; rfl⟩

theorem ends_log (level : LogLevel) (source : LogSource) (message : String) :
    Ends env o (log level source message) input "" (.ok ()) input := by
  intro output errors
  let entry := "[" ++ level.label ++ " " ++ source.label ++ "] " ++ hang "    " message ++ "\n"
  have hrun : (log level source message).run.run ⟨env, o, input, output, errors⟩ =
      (.ok (), if (env.logging && (level ≠ .debug || o.debug)) = true
        then ⟨env, o, input, output, errors ++ entry⟩ else ⟨env, o, input, output, errors⟩) := rfl
  by_cases hkept : (env.logging && (level ≠ .debug || o.debug)) = true
  · refine ⟨entry, fun hoff => ?_, ?_⟩
    · rw [hoff] at hkept
      cases hkept
    · rw [hrun, if_pos hkept, String.append_empty]
  · refine ⟨"", fun _ => rfl, ?_⟩
    rw [hrun, if_neg hkept, String.append_empty, String.append_empty]

theorem ends_print (line : String) : Ends env o (print line) input (line ++ "\n") (.ok ()) input := by
  intro output errors
  refine ⟨"", fun _ => rfl, ?_⟩
  rw [String.append_empty, ← String.append_assoc]
  rfl

theorem ends_readText (path : String) : Ends env o (readText path) input ""
    (.ok (env.text input path)) (Environment.inputAfter input path) := by
  intro output errors
  refine ⟨"", fun _ => rfl, ?_⟩
  rw [String.append_empty, String.append_empty]
  unfold readText Environment.text Environment.inputAfter
  by_cases hp : path = "-"
  · simp only [if_pos hp]
    rfl
  · simp only [if_neg hp]
    rfl

/-- The stage prints nothing and ends with the value, the rest of the input being left; without a value it
fails. -/
def Computes (env : Environment) (o : Options) (x : Stage α) (input : Except FileError String)
    (value : Option α) (left : Except FileError String) : Prop :=
  match value with
  | some a => Ends env o x input "" (.ok a) left
  | none => ∃ failure rest, Ends env o x input "" (.error failure) rest

theorem Computes.ends {value : Option α} (hx : Computes env o x input value left) (hv : value = some a) :
    Ends env o x input "" (.ok a) left := by
  subst hv
  exact hx

theorem Computes.bind {value : Option α} {g : α → Option β} (hx : Computes env o x input value left)
    (hf : ∀ a, value = some a → Computes env o (f a) left (g a) rest) :
    Computes env o (x >>= f) input (value.bind g) rest := by
  cases value with
  | none =>
    obtain ⟨failure, rest', hfails⟩ := hx
    exact ⟨failure, rest', hfails.bind_error⟩
  | some a =>
    have hx : Ends env o x input "" (.ok a) left := hx
    have hfa := hf a rfl
    show Computes env o (x >>= f) input (g a) rest
    cases hg : g a with
    | none =>
      rw [hg] at hfa
      obtain ⟨failure, rest', hfails⟩ := hfa
      exact ⟨failure, rest', hx.bind_quiet hfails⟩
    | some b =>
      rw [hg] at hfa
      have hfa : Ends env o (f a) left "" (.ok b) rest := hfa
      exact hx.bind_quiet hfa

theorem Computes.after_log {value : Option α} (level : LogLevel) (source : LogSource) (message : String)
    (h : Computes env o x input value left) :
    Computes env o (log level source message >>= fun _ => x) input value left := by
  have hlog : Computes env o (log level source message) input (some ()) input :=
    ends_log level source message
  exact hlog.bind (g := fun _ => value) fun _ _ => h

theorem Computes.after_log_if {value : Option α} {c : Prop} [Decidable c] (level : LogLevel)
    (source : LogSource) (message : String) (h : Computes env o x input value left) :
    Computes env o (do
      if c then log level source message
      x) input value left := by
  split
  · exact h.after_log _ _ _
  · exact h

theorem computes_pure (a : α) (input : Except FileError String) :
    Computes env o (pure a) input (some a) input :=
  ends_pure a

theorem computes_throw (failure : Failure) (left : Except FileError String) :
    Computes env o (throw failure : Stage α) input none left :=
  ⟨failure, input, ends_throw failure⟩

theorem computes_fail (message : String) (causes : List String) (left : Except FileError String) :
    Computes env o (fail message causes : Stage α) input none left :=
  computes_throw _ left

theorem computes_readJson (path purpose : String) : Computes env o (readJson path purpose) input
    (env.json? input path) (Environment.inputAfter input path) := by
  have hread : Computes env o (readText path) input (some (env.text input path))
      (Environment.inputAfter input path) := ends_readText path
  refine hread.bind (g := fun text => text.toOption.bind fun text => (Json.parse text).toOption) ?_
  intro text _
  cases text with
  | error e => exact computes_fail _ _ _
  | ok text =>
    simp only [Except.toOption, Option.bind_some]
    cases Json.parse text with
    | error e => exact computes_fail _ _ _
    | ok json => exact computes_pure json _

theorem Computes.of_get {value : Option α} {f : Session → Stage α}
    (hf : ∀ s, s.environment = env → f s = x) (hx : Computes env o x input value left) :
    Computes env o (get >>= f) input value left := by
  have hrun : ∀ output errors, (get >>= f).run.run ⟨env, o, input, output, errors⟩ =
      x.run.run ⟨env, o, input, output, errors⟩ := fun output errors => by
    rw [← hf ⟨env, o, input, output, errors⟩ rfl]
    rfl
  cases value with
  | none =>
    obtain ⟨failure, rest, hfails⟩ := hx
    refine ⟨failure, rest, fun output errors => ?_⟩
    rw [hrun]
    exact hfails output errors
  | some a =>
    intro output errors
    rw [hrun]
    exact hx output errors

theorem computes_loadSchema (path : Option String) :
    Computes env o (loadSchema path) input (env.schema? path) input := by
  cases path with
  | none => exact computes_pure _ input
  | some path =>
    unfold loadSchema
    show Computes env o _ input ((env.file path).toOption.bind fun text => (Schema.parse text).toOption) input
    cases hfile : env.file path with
    | error e => exact (computes_fail _ _ _).of_get fun s hs => by simp only [hs, hfile]; rfl
    | ok text =>
      simp only [Except.toOption, Option.bind_some]
      cases hparse : Schema.parse text with
      | ok schema => exact (computes_pure schema input).of_get fun s hs => by simp only [hs, hfile, hparse]
      | error e =>
        cases e with
        | unreadable e => exact (computes_fail _ _ _).of_get fun s hs => by simp only [hs, hfile, hparse]; rfl
        | refused e => exact (computes_fail _ _ _).of_get fun s hs => by simp only [hs, hfile, hparse]; rfl

theorem computes_buildEngine (schema : Schema) (maxDepth : Option Nat) :
    Computes env o (buildEngine schema maxDepth) input (Engine.ofSchema schema maxDepth).toOption input := by
  unfold buildEngine
  cases Engine.ofSchema schema maxDepth with
  | error e => exact computes_fail _ _ _
  | ok engine => exact (computes_pure engine input).after_log _ _ _

theorem ends_resolve_of_error {engine : Engine} {payload : Json} {rejection : Rejection}
    (h : engine.resolve payload = .error rejection) : Ends env o (resolve engine payload) input ""
      (.error (.report (SearchError.rejected rejection).report)) input := by
  unfold resolve
  rw [h]
  cases rejection with
  | node fault => exact ends_throw _
  | fields location tag faults => exact (ends_log _ _ _).bind_quiet (ends_throw _)

theorem computes_resolve (engine : Engine) (payload : Json) :
    Computes env o (resolve engine payload) input (engine.resolve payload).toOption input := by
  cases h : engine.resolve payload with
  | error rejection => exact ⟨_, _, ends_resolve_of_error h⟩
  | ok search =>
    unfold resolve
    rw [h]
    exact (computes_pure search input).after_log _ _ _

theorem computes_compile (engine : Engine) (search : Search) :
    Computes env o (compile engine search) input (engine.compileSearch search).toOption input := by
  unfold compile
  cases engine.compileSearch search with
  | error e => exact computes_throw _ input
  | ok p => exact (computes_pure p input).after_log _ _ _

theorem computes_loadRecords (engine : Engine) (path : String) :
    Computes env o (loadRecords engine path) input
      ((env.json? input path).bind fun json => (Record.listOfJson engine.schema json).toOption)
      (Environment.inputAfter input path) := by
  refine (computes_readJson path _).bind fun json _ => ?_
  cases Record.listOfJson engine.schema json with
  | ok records => exact (computes_pure records _).after_log _ _ _
  | error e => cases e <;> exact computes_fail _ _ _

theorem computes_select (search : Search) (p : Predicate) (records : List Record) :
    Computes env o (select search p records) input (search.run p records).toOption input := by
  unfold select
  refine Computes.after_log_if _ _ _ ?_
  cases search.run p records with
  | error e => exact computes_fail _ _ _
  | ok selected => exact (computes_pure selected input).after_log _ _ _

end Stage
end EntitySearch
