import EntitySearch.Command.Options
import EntitySearch.Engine
import EntitySearch.Json.Parser
import EntitySearch.Predicate.Printer
import EntitySearch.Schema.Json

/-!
# The command

`Options.run` compiles the search of a payload, prints its predicate and, if records are given, the
records it selects. It is a function of the options and an `Environment`; what it leaves behind is an
`Outcome`. Nothing is printed to the standard output before the whole search is compiled, and no record
before all of them are read and tested.

Reading happens in the order schema, payload, records, so that the first of several faults is reported.
-/

namespace EntitySearch

inductive FileError
  /-- The system refuses, with its own words and number. -/
  | system (text : String) (code : Nat)
  | notText
deriving DecidableEq

namespace FileError

def notFound : FileError := system "No such file or directory" 2

def isDirectory : FileError := system "Is a directory" 21

def message : FileError → String
  | system text code => text ++ " (os error " ++ natText code ++ ")"
  | notText => "stream did not contain valid UTF-8"

end FileError

structure Environment where
  file : String → Except FileError String
  stdin : Except FileError String
  /-- Whether a log is kept. -/
  logging : Bool

structure Outcome where
  exit : UInt32
  stdout : String
  stderr : String
deriving DecidableEq

/-- The text with blanks before all of its lines but the first. -/
def hang (blanks : String) (text : String) : String := ("\n" ++ blanks).intercalate (text.splitOn "\n")

inductive Failure
  /-- An error for programs to read. -/
  | report (json : Json)
  /-- A message and the messages of its causes, the innermost one last. -/
  | failed (message : String) (causes : List String)
deriving DecidableEq

namespace Failure

def numberedCauses (index : Nat) : List String → String
  | [] => ""
  | cause :: rest =>
    let number := natText index
    let margin := String.ofList (List.replicate (5 - number.length) ' ')
    "\n" ++ margin ++ number ++ ": " ++ hang "       " cause ++ numberedCauses (index + 1) rest

/-- A single cause is indented, several ones are numbered. -/
def text : Failure → String
  | report json => json.pretty ++ "\n"
  | failed message [] => "Error: " ++ message ++ "\n"
  | failed message [cause] => "Error: " ++ message ++ "\n\nCaused by:\n    " ++ hang "    " cause ++ "\n"
  | failed message causes => "Error: " ++ message ++ "\n\nCaused by:" ++ numberedCauses 0 causes ++ "\n"

end Failure

inductive LogLevel
  | debug
  | info
  | warn
deriving DecidableEq

/-- The name of the level, as wide as the widest one. -/
def LogLevel.label : LogLevel → String
  | debug => "DEBUG"
  | info => "INFO "
  | warn => "WARN "

/-- The parts of the program that write to the log. -/
inductive LogSource
  | command
  | search
  | resolver
  | compiler
deriving DecidableEq

def LogSource.label : LogSource → String
  | command => "searchtree"
  | search => "searchtree::search"
  | resolver => "searchtree::search::resolver"
  | compiler => "searchtree::predicate::compiler"

structure Session where
  environment : Environment
  options : Options
  /-- What of the standard input has not been read. -/
  input : Except FileError String
  output : String := ""
  errors : String := ""

abbrev Stage := ExceptT Failure (StateM Session)

namespace Stage

def print (line : String) : Stage Unit := modify fun s => { s with output := s.output ++ line ++ "\n" }

/-- Adds an entry to the log, the later lines of its message indented. Debug entries are written only
when they are asked for. -/
def log (level : LogLevel) (source : LogSource) (message : String) : Stage Unit := modify fun s =>
  if s.environment.logging && (level ≠ .debug || s.options.debug) then
    let entry := "[" ++ level.label ++ " " ++ source.label ++ "] " ++ hang "    " message ++ "\n"
    { s with errors := s.errors ++ entry }
  else s

def fail {α : Type} (message : String) (causes : List String) : Stage α :=
  throw (.failed message causes)

/-- The text of a file, or what is left of the standard input. -/
def readText (path : String) : Stage (Except FileError String) := do
  if path = "-" then
    let s ← get
    set { s with input := .ok "" }
    return s.input
  else return (← get).environment.file path

/-- The JSON value a file holds; `purpose` says what could not be done without it. -/
def readJson (path purpose : String) : Stage Json := do
  match ← readText path with
  | .error e => fail purpose [e.message]
  | .ok text => match Json.parse text with
    | .error e => fail purpose [e.message]
    | .ok json => return json

def loadSchema : Option String → Stage Schema
  | none => return .usersAndCompanies
  | some path => do
    let purpose := "Failed to load registry from " ++ path
    match (← get).environment.file path with
    | .error e => fail purpose ["IO error: " ++ e.message, e.message]
    | .ok text => match Schema.parse text with
      | .ok schema => return schema
      | .error (.unreadable e) => fail purpose [Schema.LoadError.message (.unreadable e), e.message]
      | .error (.refused e) => fail purpose [e.message]

def buildEngine (schema : Schema) (maxDepth : Option Nat) : Stage Engine := do
  match Engine.ofSchema schema maxDepth with
  | .error e => fail "Invalid entity registry" [e.message]
  | .ok engine =>
    let tags := engine.grammar.tags
    log .info .search ("Search compiler ready with " ++ natText tags.length ++ " variants: " ++
      ", ".intercalate tags)
    return engine

def resolve (engine : Engine) (payload : Json) : Stage Search := do
  match engine.resolve payload with
  | .ok search =>
    log .debug .resolver ("Resolved search tree rooted at " ++ search.tag ++ " node")
    return search
  | .error rejection =>
    if let .fields location tag faults := rejection then
      log .debug .resolver ("Payload at " ++ location.text ++ " rejected by " ++ tag ++
        " variant with " ++ natText faults.length ++ " error(s)")
    throw (.report (SearchError.rejected rejection).report)

def compile (engine : Engine) (search : Search) : Stage Predicate := do
  match engine.compileSearch search with
  | .ok p =>
    log .debug .compiler ("Compiled search tree into predicate: " ++ p.text)
    return p
  | .error e => throw (.report (SearchError.uncompilable e).report)

def loadRecords (engine : Engine) (path : String) : Stage (List Record) := do
  let json ← readJson path ("Failed to read records from " ++ path)
  match Record.listOfJson engine.schema json with
  | .ok records =>
    log .debug .command ("Loaded " ++ natText records.length ++ " records")
    return records
  | .error e => match e.messages with
    | [] => fail "" []
    | message :: causes => fail message causes

def select (search : Search) (p : Predicate) (records : List Record) : Stage (List Record) := do
  if search.kind?.isNone then
    log .warn .command "Search names no entity kind; scanning every record"
  match search.run p records with
  | .error e => fail e.message []
  | .ok selected =>
    log .info .command (natText selected.length ++ " records matched")
    return selected

end Stage

open Stage in
/-- The stages before anything is printed. -/
def Options.compileSearch (o : Options) : Stage (Engine × Search × Predicate) := do
  let schema ← loadSchema o.schema
  log .info .command ("Loaded " ++ natText schema.size ++ " entity kinds")
  let engine ← buildEngine schema o.maxDepth
  let payload ← readJson o.payload "Failed to read search payload"
  let search ← resolve engine payload
  let p ← compile engine search
  return (engine, search, p)

open Stage in
/-- The records of a file that the search selects. -/
def Options.selectRecords (engine : Engine) (search : Search) (p : Predicate) (path : String) :
    Stage (List Record) := do
  let records ← loadRecords engine path
  select search p records

open Stage in
def Options.stages (o : Options) : Stage Unit := do
  let (engine, search, p) ← o.compileSearch
  print p.text
  print p.toJson.pretty
  if let some path := o.records then
    for r in ← selectRecords engine search p path do
      print r.toJson.compact

def Options.run (o : Options) (environment : Environment) : Outcome :=
  let (result, s) := StateT.run (ExceptT.run o.stages)
    { environment, options := o, input := environment.stdin }
  match result with
  | .ok () => ⟨0, s.output, s.errors⟩
  | .error failure => ⟨1, s.output, s.errors ++ failure.text⟩

def versionText : String := "searchtree 0.1.0\n"

def helpText : String :=
  "searchtree - resolve a search payload, compile it, and optionally run it

Usage: searchtree [OPTIONS] [PAYLOAD]

Arguments:
  [PAYLOAD]  Search payload JSON file, or \"-\" for stdin [default: -]

Options:
  -s, --schema <SCHEMA>        Entity registry JSON file (defaults to the builtin User/Company registry)
  -r, --records <RECORDS>      JSON array of records to filter with the compiled predicate
  -m, --max-depth <MAX_DEPTH>  Maximum nesting depth accepted in payloads
  -d, --debug                  Enable debug logging
  -h, --help                   Print help
  -V, --version                Print version
"

/-- What the program does for the words of its command line. -/
def runCommand (words : List String) (environment : Environment) : Outcome :=
  match Options.parse words with
  | .error _ => ⟨2, "", ""⟩
  | .ok .version => ⟨0, versionText, ""⟩
  | .ok .help => ⟨0, helpText, ""⟩
  | .ok (.run options) => options.run environment

end EntitySearch
