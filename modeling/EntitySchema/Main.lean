import EntitySchema.CommandLine

/-!
# The program

Reads the file that the command line names, if it names one, and prints what the command says.
-/

/-- The contents of a file, if it can be read. -/
def EntitySchema.readContents (path : String) : IO (Option ByteArray) := do
  try
    return some (← IO.FS.readBinFile path)
  catch _ =>
    return none

open EntitySchema

/-- Runs the command line. -/
def main (arguments : List String) : IO UInt32 := do
  let contents ←
    match Command.ofArguments arguments with
    | .ok (.onFile _ path) => readContents path
    | _ => pure none
  let outcome := runCommandLine (fun _ => contents) arguments
  IO.print outcome.stdout
  IO.eprint outcome.stderr
  return outcome.code.toUInt32
