import EntitySearch.Number.Integer

/-!
# Command line options

`Options.parse` reads the words of a command line from left to right. A word that begins with a hyphen
is an option, unless it is the hyphen alone or comes after `--`; an option's value is given in the same
word or is the next one, which must not be an option then. No option may be given twice. The first
fault ends the reading, and so does a request for the version or for help.
-/

namespace EntitySearch

structure Options where
  /-- The file of the payload, `-` for standard input. -/
  payload : String := "-"
  schema : Option String := none
  records : Option String := none
  maxDepth : Option Nat := none
  debug : Bool := false
deriving DecidableEq

inductive UsageError
  | unknownOption (word : String)
  | repeatedOption (word : String)
  | missingValue (word : String)
  | unwantedValue (word : String)
  | invalidValue (word value : String)
  | unwantedWord (word : String)
deriving DecidableEq

inductive Request
  | run (options : Options)
  | version
  | help
deriving DecidableEq

inductive Setting
  | schema
  | records
  | maxDepth
deriving DecidableEq

namespace Setting

def word : Setting → String
  | schema => "--schema"
  | records => "--records"
  | maxDepth => "--max-depth"

end Setting

/-- A number below `2 ^ 64` in decimal, a plus sign before it allowed. -/
def wordOfDecimal? (text : String) : Option Nat :=
  let digits := match text.toList with
    | '+' :: rest => rest
    | chars => chars
  if digits ≠ [] ∧ digits.all Char.isDigit then
    let n := natOfChars digits
    if n < 0x10000000000000000 then some n else none
  else none

namespace Options

/-- The options read so far; a payload that has not been given yet is the default. -/
structure Draft where
  payload : Option String := none
  schema : Option String := none
  records : Option String := none
  maxDepth : Option Nat := none
  debug : Bool := false

namespace Draft

def finish (d : Draft) : Options := ⟨d.payload.getD "-", d.schema, d.records, d.maxDepth, d.debug⟩

/-- A path, which must not be empty, for an option that has not been given `before`. -/
def path (s : Setting) (before : Option String) (value : String) : Except UsageError String :=
  if before.isSome then .error (.repeatedOption s.word)
  else if value = "" then .error (.invalidValue s.word value)
  else .ok value

def set (d : Draft) (s : Setting) (value : String) : Except UsageError Draft :=
  match s with
  | .schema => (path s d.schema value).map fun p => { d with schema := some p }
  | .records => (path s d.records value).map fun p => { d with records := some p }
  | .maxDepth =>
    if d.maxDepth.isSome then .error (.repeatedOption s.word)
    else match wordOfDecimal? value with
      | some n => .ok { d with maxDepth := some n }
      | none => .error (.invalidValue s.word value)

def setDebug (d : Draft) : Except UsageError Draft :=
  if d.debug then .error (.repeatedOption "--debug") else .ok { d with debug := true }

def setPayload (d : Draft) (word : String) : Except UsageError Draft :=
  if d.payload.isSome then .error (.unwantedWord word) else .ok { d with payload := some word }

end Draft

/-- What one word of a command line comes to. -/
inductive Reading
  | draft (d : Draft)
  | needsValue (d : Draft) (s : Setting)
  | version
  | help

/-- A word of two hyphens and a name, perhaps with a value. -/
def readLong (d : Draft) (word : String) : Except UsageError Reading :=
  let chars := word.toList
  let name := String.ofList (chars.takeWhile (· ≠ '='))
  let value? : Option String := match chars.dropWhile (· ≠ '=') with
    | [] => none
    | _ :: value => some (.ofList value)
  let setting (s : Setting) : Except UsageError Reading := match value? with
    | none => .ok (.needsValue d s)
    | some value => (d.set s value).map .draft
  let flag (reading : Except UsageError Reading) : Except UsageError Reading :=
    if value?.isSome then .error (.unwantedValue word) else reading
  match name with
  | "--schema" => setting .schema
  | "--records" => setting .records
  | "--max-depth" => setting .maxDepth
  | "--debug" => flag (d.setDebug.map .draft)
  | "--version" => flag (.ok .version)
  | "--help" => flag (.ok .help)
  | _ => .error (.unknownOption word)

/-- Letters after one hyphen: each is an option, and what follows one that has a value is its value,
an equals sign between them allowed. -/
def readShort (d : Draft) : List Char → Except UsageError Reading
  | [] => .ok (.draft d)
  | 'd' :: rest => match d.setDebug with
    | .ok d => readShort d rest
    | .error e => .error e
  | 'V' :: _ => .ok .version
  | 'h' :: _ => .ok .help
  | 's' :: rest => setting .schema rest
  | 'r' :: rest => setting .records rest
  | 'm' :: rest => setting .maxDepth rest
  | c :: _ => .error (.unknownOption (.ofList ['-', c]))
where
  setting (s : Setting) : List Char → Except UsageError Reading
    | [] => .ok (.needsValue d s)
    | '=' :: value | value => (d.set s (.ofList value)).map .draft

def isOption (word : String) : Bool := word ≠ "-" && word.toList.head? = some '-'

/-- The words after `--`. -/
def readWords (d : Draft) : List String → Except UsageError Options
  | [] => .ok d.finish
  | word :: rest => match d.setPayload word with
    | .error e => .error e
    | .ok d => readWords d rest

def readWord (d : Draft) (word : String) : Except UsageError Reading :=
  if isOption word then
    match word.toList with
    | '-' :: '-' :: _ => readLong d word
    | _ :: letters => readShort d letters
    | [] => .ok (.draft d)
  else (d.setPayload word).map .draft

def read (d : Draft) : List String → Except UsageError Request
  | [] => .ok (.run d.finish)
  | "--" :: rest => (readWords d rest).map .run
  | word :: rest => match readWord d word with
    | .error e => .error e
    | .ok .version => .ok .version
    | .ok .help => .ok .help
    | .ok (.draft d) => read d rest
    | .ok (.needsValue d s) => match rest with
      | [] => .error (.missingValue s.word)
      | value :: rest =>
        if isOption value then .error (.missingValue s.word)
        else match d.set s value with
          | .error e => .error e
          | .ok d => read d rest

def parse (words : List String) : Except UsageError Request := read {} words

end Options

end EntitySearch
