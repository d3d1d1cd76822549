import Reckon.Command
import Reckon.Text.Utf8

/-!
# The program

Reads the files and the standard input that the options ask for, and writes what the command gives.
-/

namespace Reckon

/-- Reads a file. -/
def readFile (path : String) : IO File := do
  try
    let bytes ← IO.FS.readBinFile path
    return .text (Text.Utf8.decode bytes.toList)
  catch e =>
    match e with
    | .noFileOrDirectory .. => return .missing
    | .permissionDenied .. => return .unopened "permission denied"
    | .inappropriateType .. => return .directory
    | e => return .unopened e.toString

/-- Reads the rest of a stream. -/
partial def readRest (stream : IO.FS.Stream) (found : ByteArray) : IO ByteArray := do
  let bytes ← stream.read 65536
  if bytes.isEmpty then return found else readRest stream (found ++ bytes)

/-- Reads what options ask for. -/
def readInputs (o : Options) : IO Inputs := do
  let files ← o.paths.mapM fun path => return (path, ← readFile path)
  let input ← if o.readsInput then readRest (← IO.getStdin) .empty else pure .empty
  return ⟨fun path => (files.lookup path).getD .missing, Text.Utf8.decode input.toList⟩

/-- Writes an outcome. -/
def Outcome.write (o : Outcome) : IO UInt32 := do
  (← IO.getStdout).putStr o.output
  (← IO.getStderr).putStr o.errors
  return o.exitCode.toUInt32

end Reckon

/-- Runs the command. -/
def main (args : List String) : IO UInt32 := do
  match Reckon.Options.parse args with
  | .error e => (Reckon.Command.misused e).write
  | .ok o => (Reckon.Command.execute o (← Reckon.readInputs o)).write
