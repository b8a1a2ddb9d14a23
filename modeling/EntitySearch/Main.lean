import EntitySearch.Command.Run

/-!
# The program

Reads the files that the words of the command line name, and the standard input if one of them is `-`,
and writes what the command makes of them.
-/

namespace EntitySearch

/-- An error of the system, whose number may come negated in thirty-two bits. -/
def systemError (code : UInt32) (text : String) : FileError :=
  .system text.capitalize (if code < 0x80000000 then code.toNat else 0x100000000 - code.toNat)

/-- What is said about a file the system does not give. -/
def fileError : IO.Error → FileError
  | .noFileOrDirectory _ code text => systemError code text
  | .permissionDenied _ code text => systemError code text
  | .inappropriateType _ code text => systemError code text
  | .invalidArgument _ code text => systemError code text
  | .resourceExhausted _ code text => systemError code text
  | _ => .notFound

def decodeText (bytes : ByteArray) : Except FileError String :=
  match String.fromUTF8? bytes with
  | some text => .ok text
  | none => .error .notText

def readTextFile (path : String) : IO (Except FileError String) := do
  try
    return decodeText (← IO.FS.readBinFile path)
  catch e =>
    return .error (fileError e)

/-- Everything that is left in a stream. -/
partial def readRest (stream : IO.FS.Stream) (sofar : ByteArray) : IO ByteArray := do
  let chunk ← stream.read 65536
  if chunk.isEmpty then return sofar else readRest stream (sofar ++ chunk)

/-- The paths that a run may read. -/
def Options.paths (o : Options) : List String := o.schema.toList ++ [o.payload] ++ o.records.toList

end EntitySearch

open EntitySearch in
def main (words : List String) : IO UInt32 := do
  let paths := match Options.parse words with
    | .ok (.run options) => options.paths
    | _ => []
  let files ← paths.mapM fun path => return (path, ← readTextFile path)
  let stdin ← if paths.contains "-" then readRest (← IO.getStdin) .empty else pure .empty
  let outcome := runCommand words {
    file := fun path => (files.lookup path).getD (.error .notFound)
    stdin := decodeText stdin
    logging := true }
  IO.print outcome.stdout
  IO.eprint outcome.stderr
  return outcome.exit
