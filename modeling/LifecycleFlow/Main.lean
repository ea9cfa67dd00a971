import LifecycleFlow.CommandLine

/-!
# The program

The program: reads the file that the command line names, and runs the command.
-/
open LifecycleFlow

def readContent (path : String) : IO FileContent := do
  try
    return .ok (← IO.FS.readBinFile path)
  catch e =>
    match e with
    | .inappropriateType _ 21 _ => return .error .directory
    | .inappropriateType _ _ _ => return .error .notDirectory
    | .permissionDenied _ _ _ => return .error .forbidden
    | .invalidArgument _ _ _ => return .error .nameTooLong
    | _ => return .error .missing

def main (args : List String) : IO UInt32 := do
  let content ← match (Command.ofArgs? args).bind Command.file? with
    | some path => readContent path
    | none => pure (.error .missing)
  let outcome := Command.runArgs (fun _ => content) args
  IO.print outcome.output
  IO.eprint outcome.errors
  return outcome.exit.toUInt32
