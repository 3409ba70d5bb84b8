import RecordQuery.CommandLine.Help
import RecordQuery.Json.Printer
import RecordQuery.Records.Filter
import RecordQuery.Records.Latest
import RecordQuery.Records.Load
import RecordQuery.Text.Cut

/-!
# Executing a command line

`CommandLine.run` is the program without its input and output: from the arguments, the environment
and the contents of files it computes what is printed and the exit code. The code is 0 for a result,
1 for a document, range or query that fails, and 2 for a wrong command line.
-/

namespace RecordQuery.CommandLine

/-! ## Results -/

/-- How the program ends. -/
structure Exit where
  /-- The exit code. -/
  code : UInt32
  /-- What is printed. -/
  output : String
  /-- What is reported beside the output. -/
  report : String
deriving DecidableEq, Repr

/-- Why a command fails. -/
inductive Failure where
  /-- A document cannot be used. -/
  | load (error : LoadError)
  /-- A range cannot be read. -/
  | version (error : VersionError)
  /-- The query fails. -/
  | query (error : QueryError)
deriving DecidableEq, Repr

/-- The wording of a failure. -/
def Failure.message : Failure → String
  | .load error => error.message?.getD "a file cannot be read as a JSON document"
  | .version error => "Invalid version: " ++ error.message
  | .query error => error.message

/-- The line that states the version of the program. -/
def versionLine : String := "provql 0.1.0\n"

/-! ## Files -/

/-- Files by path. -/
structure Files where
  /-- The bytes of each file. -/
  entries : List (String × ByteArray)

namespace Files

/-- A relative path without the steps that stay where they are, such as `./` and a second slash. An
absolute path is left alone. -/
def plainPath (path : String) : String :=
  match Text.pieces '/' path.toList with
  | ([], _) => path
  | (step, steps) =>
    let stays := (step :: steps.dropLast).filter fun step => step ≠ [] && step ≠ ['.']
    String.ofList (['/'].intercalate (if steps = [] then [step] else stays ++ steps.getLast?.toList))

/-- The bytes of the file at a path. -/
def contents? (files : Files) (path : String) : Option ByteArray :=
  match Named.lookup path files.entries with
  | some bytes => some bytes
  | none => Named.lookup (plainPath path) files.entries

end Files

/-- The files that a request reads. -/
def Request.paths (request : Request) : List String :=
  (request.value? .config).toList ++ (request.value? .translations).toList ++ [request.records]

/-! ## Commands -/

/-- The configuration of a request: from its file, or from the environment, with its own locale. -/
def configOf (request : Request) (environment : String → Option String) (files : Files) :
    Except Failure QueryConfig := do
  let default := QueryConfig.ofEnvironment environment
  let config ← match request.value? .config with
    | none => pure default
    | some path => do
      let text ← (textOfFile (files.contents? path)).mapError .load
      match default.parse? text with
      | some config => pure config
      | none => throw (.load .malformed)
  return match request.value? .locale with
    | some locale => { config with locale }
    | none => config

/-- The records of a request. -/
def recordsOf (request : Request) (files : Files) : Except Failure (List Value) :=
  (Records.load (files.contents? request.records)).mapError .load

/-- The criteria of a request. -/
def filterOf (request : Request) : Except Failure MatchFilter := do
  let range ← match request.value? .range with
    | none => pure none
    | some text => some <$> (VersionRange.parse text).mapError .version
  return {
    kind := request.value? .kind
    idPattern := (request.value? .id).getD "*"
    range := range
    namePattern := request.value? .name }

/-- The texts of a request. -/
def supportOf (request : Request) (files : Files) :
    Except Failure (Option (String → String → Option String)) :=
  match request.value? .translations with
  | none => pure none
  | some path => do
    let table ← (TranslationTable.load (files.contents? path)).mapError .load
    return some table.text?

/-- The result of a request. -/
def execute (request : Request) (environment : String → Option String) (files : Files) :
    Except Failure (List Value) := do
  let config ← configOf request environment files
  match request.verb with
  | .latest =>
    let records ← recordsOf request files
    let query : LatestQuery := { kind := request.value? .kind, idPattern := request.value? .id }
    (query.run config records).result.mapError .query
  | .matching =>
    let filter ← filterOf request
    let support ← supportOf request files
    let records ← recordsOf request files
    (filter.run config support records).result.mapError .query

/-- The end of the program where it does no work. -/
def Stop.exit : Stop → Exit
  | .usage reason => ⟨2, "", "error: " ++ reason ++ "\n"⟩
  | .version => ⟨0, versionLine, ""⟩
  | .help topic => ⟨0, topic.page, ""⟩

/-- The end of the program for a request. -/
def Request.exit (request : Request) (environment : String → Option String) (files : Files) : Exit :=
  match execute request environment files with
  | .ok results => ⟨0, (Records.render results).pretty ++ "\n", ""⟩
  | .error failure => ⟨1, "", "Error: " ++ failure.message ++ "\n"⟩

/-- The program, given all that it reads. -/
def run (arguments : List String) (environment : String → Option String) (files : Files) : Exit :=
  match Request.parse arguments with
  | .error stop => stop.exit
  | .ok request => request.exit environment files

end RecordQuery.CommandLine
