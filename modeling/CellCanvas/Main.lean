import CellCanvas.Demo

/-!
# The demonstration program's outer layer

Reads the files that the arguments name and writes what the run says.
-/

open CellCanvas CellCanvas.Demo

/-- The bytes of a file, or why they cannot be had. -/
def readFile (path : String) : IO (Except IoFailure ByteArray) := do
  try
    return .ok (← IO.FS.readBinFile path)
  catch
    | .noFileOrDirectory .. => return .error .fileNotFound
    | e => return .error (.other (toString e))

/-- The files that options name. -/
def readFiles (o : Options) : IO Files := do
  let capabilities ← match o.capabilities with
    | some path => readFile path
    | none => pure (.error .fileNotFound)
  let picture ← match o.picture with
    | some path => readFile path
    | none => pure (.error .fileNotFound)
  return { capabilities, picture := picture.toOption }

def main (arguments : List String) : IO UInt32 := do
  let files ← match Options.ofArguments {} arguments with
    | .ok (some o) => readFiles o
    | _ => pure {}
  let outcome := Demo.run arguments fun _ => files
  let stdout ← IO.getStdout
  stdout.write outcome.output
  stdout.flush
  if outcome.waits then
    let _ ← (← IO.getStdin).getLine
  stdout.write outcome.farewell
  stdout.flush
  (← IO.getStderr).putStr outcome.errors
  return if outcome.failed then 1 else 0
