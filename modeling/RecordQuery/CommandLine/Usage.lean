/-!
# Reading a command line

`Request.parse` reads the arguments of the program: options for both commands, the command, and its
own options and records file. Options take one value, as the next argument or after an equals sign,
and may be given once before and once after the command, where the latter counts. A next argument
that begins with a minus sign is no value, unless it is the sign alone. After `--` all arguments are
positional.

Arguments are read from left to right, and the first that is wrong, or asks for the version or for
help, decides. Only the value in the argument right before the command is looked at last: a call for
help behind the command comes before a complaint about it.
-/

namespace RecordQuery.CommandLine

/-! ## Requests -/

/-- The command that is asked for. -/
inductive Verb where
  /-- The latest version of each item. -/
  | latest
  /-- Every version that meets some criteria. -/
  | matching
deriving DecidableEq, Repr

/-- The name of a command. -/
def Verb.name : Verb → String
  | .latest => "latest"
  | .matching => "match"

/-- The command of a name. -/
def Verb.ofName? (name : String) : Option Verb :=
  [latest, matching].find? fun verb => verb.name = name

/-- What can be explained. -/
inductive Topic where
  /-- The whole program. -/
  | program
  /-- One command. -/
  | command (verb : Verb)
  /-- The command that explains the others. -/
  | help
deriving DecidableEq, Repr

/-- Why the program ends before it does any work. -/
inductive Stop where
  /-- The command line is wrong. -/
  | usage (reason : String)
  /-- The version of the program is asked for. -/
  | version
  /-- Help is asked for. -/
  | help (topic : Topic)
deriving DecidableEq, Repr

/-- An option. -/
inductive Flag where
  /-- The configuration file. -/
  | config
  /-- The locale, instead of the configured one. -/
  | locale
  /-- The catalog of translations. -/
  | translations
  /-- The kind of records. -/
  | kind
  /-- The pattern for identifiers. -/
  | id
  /-- The range of versions. -/
  | range
  /-- The pattern for names. -/
  | name
deriving DecidableEq, Repr

/-- What is read so far at one level of the command line. -/
structure Given where
  /-- The options with their values. -/
  options : List (Flag × String) := []
  /-- The records file. -/
  records : Option String := none

/-- A command line that can be executed. -/
structure Request where
  /-- The command. -/
  verb : Verb
  /-- The records file. -/
  records : String
  /-- The options with their values; the first of several counts. -/
  options : List (Flag × String)
deriving Repr

namespace Flag

/-- All flags. -/
def all : List Flag :=
  [.config, .locale, .translations, .kind, .id, .range, .name]

/-- The long option of a flag. -/
def longName : Flag → String
  | .config => "config"
  | .locale => "locale"
  | .translations => "translations"
  | .kind => "kind"
  | .id => "id"
  | .range => "range"
  | .name => "name"

/-- The flag that a long option names. -/
def ofName? (name : String) : Option Flag :=
  all.find? fun flag => flag.longName = name

/-- Whether the flag may be given where the command is not known yet (`none`) or is known. -/
def allowedFor : Flag → Option Verb → Bool
  | .config, _ | .locale, _ | .translations, _ => true
  | .kind, verb | .id, verb => verb.isSome
  | .range, verb | .name, verb => verb = some .matching

/-- Whether the value is the path of a file, which cannot be empty. -/
def isPath : Flag → Bool
  | .config | .translations => true
  | _ => false

end Flag

/-! ## Arguments -/

/-- An argument by its form. -/
inductive Argument where
  /-- The end of options. -/
  | terminator
  /-- A long option, perhaps with a value behind an equals sign. -/
  | long (name : String) (value : Option String)
  /-- Letters behind one minus sign. -/
  | short (letters : List Char)
  /-- Anything else. -/
  | plain (text : String)

/-- The form of an argument. -/
def Argument.ofString (text : String) : Argument :=
  match text.toList with
  | ['-', '-'] => .terminator
  | '-' :: '-' :: rest =>
    let (name, value) := rest.span (· ≠ '=')
    .long (String.ofList name) (match value with
      | _ :: value => some (String.ofList value)
      | [] => none)
  | '-' :: c :: rest => .short (c :: rest)
  | _ => .plain text

/-- The name of the command that explains the others. -/
def helpName : String := "help"

/-- The error of a name that is no command. -/
def unrecognized (name : String) : Stop :=
  .usage ("unrecognized command '" ++ name ++ "'")

/-- What the arguments after `help` ask for: help on all commands, or on the one command that they
name. None of them is an option. -/
def helpOn : List String → Stop
  | [] => .help .program
  | name :: rest =>
    match topicOfName? name, rest with
    | none, _ => unrecognized name
    | some topic, [] => .help topic
    | some _, next :: _ => unrecognized next
where
  /-- The topic of a name. -/
  topicOfName? (name : String) : Option Topic :=
    if name = helpName then some .help else (Verb.ofName? name).map .command

/-- What a call for help is about, before the command (`none`) or behind it. -/
def Topic.ofVerb : Option Verb → Topic
  | none => program
  | some verb => command verb

/-- What option letters ask for; the first decides. -/
def stopOfLetters (verb : Option Verb) (letters : List Char) : Stop :=
  match letters with
  | 'h' :: _ => .help (.ofVerb verb)
  | 'V' :: _ => if verb = none then .version else unexpected
  | _ => unexpected
where
  /-- The letters ask for nothing. -/
  unexpected := Stop.usage ("unexpected argument '-" ++ String.ofList letters ++ "'")

/-- What a long option that is no flag asks for. -/
def stopOfName (verb : Option Verb) (name : String) (value : Option String) : Stop :=
  if value = none ∧ name = helpName then .help (.ofVerb verb)
  else if value = none ∧ name = "version" ∧ verb = none then .version
  else .usage ("unexpected argument '--" ++ name ++ "'")

/-- Notes the value of an option, which must not have one already. -/
def Given.add (given : Given) (flag : Flag) (value : String) : Except Stop Given :=
  if given.options.any fun option => option.1 = flag then
    .error (.usage "an option is given twice")
  else if flag.isPath ∧ value = "" then .error (.usage "a path is empty")
  else .ok { given with options := given.options ++ [(flag, value)] }

/-- Notes the records file, of which there is one. -/
def Given.addRecords (given : Given) (path : String) : Except Stop Given :=
  if given.records.isSome then .error (.usage ("unexpected argument '" ++ path ++ "'"))
  else if path = "" then .error (.usage "a path is empty")
  else .ok { given with records := some path }

/-- The error of an option without its value. -/
def valueMissing : Stop :=
  .usage "a value is required for an option"

/-- The error of a command line without a command. -/
def commandMissing : Stop :=
  .usage "a command is required"

/-- What a long option asks for: a value for a flag, which may stand in the same argument. -/
def flagOf (verb : Option Verb) (name : String) (value : Option String) : Except Stop Flag :=
  match Flag.ofName? name with
  | none => .error (stopOfName verb name value)
  | some flag => if flag.allowedFor verb then .ok flag else .error (stopOfName verb name value)

/-! ## The whole command line -/

/-- Reads arguments that are all positional. -/
def readPositional (given : Given) : List String → Except Stop Given
  | [] => .ok given
  | path :: rest => do readPositional (← given.addRecords path) rest

/-- Reads what follows the command. A flag that is `pending` waits for its value. -/
def readCommand (verb : Verb) : Option Flag → Given → List String → Except Stop Given
  | none, given, [] => .ok given
  | some _, _, [] => .error valueMissing
  | pending, given, argument :: rest =>
    match pending, Argument.ofString argument with
    | some flag, .plain value => do readCommand verb none (← given.add flag value) rest
    | some _, _ => .error valueMissing
    | none, .terminator => readPositional given rest
    | none, .short letters => .error (stopOfLetters (some verb) letters)
    | none, .plain path => do readCommand verb none (← given.addRecords path) rest
    | none, .long name value => do
      let flag ← flagOf (some verb) name value
      match value with
      | some value => do readCommand verb none (← given.add flag value) rest
      | none => readCommand verb (some flag) given rest

/-- An option before the command whose value is not noted yet. -/
structure Held where
  /-- The option. -/
  flag : Flag
  /-- Its value, if that argument is read. -/
  value : Option String := none

/-- Notes the option that is held, if any. -/
def Given.settle (given : Given) : Option Held → Except Stop Given
  | none => .ok given
  | some ⟨_, none⟩ => .error valueMissing
  | some ⟨flag, some value⟩ => given.add flag value

/-- The request of a command and its arguments, after the options that stand before it. -/
def requestOf (before : Given) (held : Option Held) (verb : Verb) (arguments : List String) :
    Except Stop Request := do
  let after ← readCommand verb none {} arguments
  let before ← before.settle held
  match after.records with
  | none => throw (.usage "a records file is required")
  | some records => return ⟨verb, records, after.options ++ before.options⟩

/-- Reads the arguments up to the command. An option that stands alone in its argument is held until
the next option comes or the command is read. -/
def readProgram : Option Held → Given → List String → Except Stop Request
  | held, given, [] => do
    let _ ← given.settle held
    throw commandMissing
  | held, given, argument :: rest =>
    match held, Argument.ofString argument with
    | some ⟨flag, none⟩, .plain value => readProgram (some ⟨flag, value⟩) given rest
    | held, .plain name =>
      match Verb.ofName? name with
      | some verb => requestOf given held verb rest
      | none => .error (if name = helpName then helpOn rest else unrecognized name)
    | held, .terminator => do
      let _ ← given.settle held
      throw commandMissing
    | held, .short letters => do
      let _ ← given.settle held
      throw (stopOfLetters none letters)
    | held, .long name value => do
      let given ← given.settle held
      let flag ← flagOf none name value
      match value with
      | some value => do readProgram none (← given.add flag value) rest
      | none => readProgram (some { flag }) given rest

/-- Reads a command line. -/
def Request.parse (arguments : List String) : Except Stop Request :=
  readProgram none {} arguments

/-- The value of an option. -/
def Request.value? (request : Request) (flag : Flag) : Option String :=
  (request.options.find? fun option => option.1 = flag).map Prod.snd

end RecordQuery.CommandLine
