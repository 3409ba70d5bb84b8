import RecordQuery.CommandLine.Run

/-!
# The program

Reads the environment and the files that the command line names, and prints what
`CommandLine.run` computes from them.
-/

namespace RecordQuery.CommandLine

/-- The environment variables that are set, of those the program asks for. -/
def readEnvironment : IO (List (String × String)) := do
  let found ← Locale.environmentNames.mapM fun name => do
    return (← IO.getEnv name).map fun value => (name, value)
  return found.filterMap id

/-- The files at the paths, where they can be read. -/
def readFiles (paths : List String) : IO Files := do
  let found ← paths.mapM fun (path : String) => do
    try return some (path, ← IO.FS.readBinFile path)
    catch _ => return none
  return ⟨found.filterMap id⟩

end RecordQuery.CommandLine

open RecordQuery RecordQuery.CommandLine

/-- Runs the program. -/
def main (arguments : List String) : IO UInt32 := do
  let environment ← readEnvironment
  let paths := match Request.parse arguments with
    | .ok request => request.paths
    | .error _ => []
  let files ← readFiles paths
  let exit := CommandLine.run arguments (Named.lookup · environment) files
  IO.print exit.output
  IO.eprint exit.report
  return exit.code
