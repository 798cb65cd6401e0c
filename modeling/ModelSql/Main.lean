import ModelSql.CommandLine.Report
/-!
# The program

Reads the files that the arguments name and prints the script, or the failure and
what is behind it. Unusable arguments end with exit code 2, failures with 1.
-/

namespace ModelSql.CommandLine

/-- The contents of a file, if it can be read. -/
def readFile? (path : String) : IO (Option String) := do
  try
    return some (← IO.FS.readFile path)
  catch _ =>
    return none

/-- Prints a report and gives the exit code. -/
def printReport (r : Report) : IO UInt32 := do
  for line in r.info do
    IO.eprintln (" INFO " ++ line)
  match r.script with
  | .ok script =>
    IO.println script
    return 0
  | .error failure =>
    IO.eprintln ("Error: " ++ failure.message)
    if let some fault := failure.cause? then
      IO.eprintln ("\nCaused by:\n    " ++ fault.message)
    return 1

end ModelSql.CommandLine

open ModelSql.CommandLine in
def main (arguments : List String) : IO UInt32 := do
  match parse? arguments (← IO.getEnv "OXIDE_SQLGEN_DIALECT") with
  | none =>
    IO.eprintln ("usage: oxide-sqlgen --model FILE [--dialect NAME] [--table NAME] " ++
      "[--config FILE] [--verbose] templates|create-table|fts")
    return 2
  | some .version =>
    IO.println versionLine
    return 0
  | some (.run options) =>
    let files ← options.paths.mapM fun path => do return (path, ← readFile? path)
    printReport (options.report fun path => (files.lookup path).join)
