import NodeSelection.Simulation.Command

/-!
The command line.
-/

open NodeSelection

def readConfiguration (path : String) : IO (Except LoadError ByteArray) := do
  try
    return .ok (← IO.FS.readBinFile path)
  catch
    | .noFileOrDirectory .. => return .error .missingFile
    | e => return .error (.unreadable (toString e))

def main (arguments : List String) : IO UInt32 := do
  match Command.Line.ofArguments arguments with
  | none =>
    IO.eprintln Command.usage
    return 2
  | some (path, options) =>
    let file ← readConfiguration path
    let result := Command.result options file (.ofSeed (← IO.monoNanosNow))
    IO.print result.output
    IO.eprint result.errors
    return result.exitCode
