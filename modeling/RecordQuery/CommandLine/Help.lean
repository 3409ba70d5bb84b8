import RecordQuery.CommandLine.Usage

/-!
# Explaining the command line

`Topic.page` is the text that explains the program or one of its commands: what it is for, how it is
written, and its commands, arguments and options. Commands and arguments are explained beside their
names, in a column, and options on the line below.
-/

namespace RecordQuery.CommandLine

/-! ## Lists of explanations -/

/-- Something to explain. -/
structure Entry where
  /-- How it is written. -/
  spelling : String
  /-- What it is for. -/
  purpose : String

/-- A run of spaces. -/
def spaces (count : Nat) : String :=
  String.ofList (List.replicate count ' ')

/-- The width of the widest spelling. -/
def columnWidth (entries : List Entry) : Nat :=
  entries.foldr (fun entry width => max entry.spelling.length width) 0

/-- A list with every purpose beside the spelling. -/
def table (title : String) (entries : List Entry) : String :=
  let width := columnWidth entries
  "\n".intercalate ((title ++ ":") :: entries.map fun entry =>
    "  " ++ entry.spelling ++ spaces (width - entry.spelling.length + 2) ++ entry.purpose)

/-- A list with every purpose on the line below the spelling. -/
def listing (title : String) (entries : List Entry) : String :=
  "\n".intercalate ((title ++ ":") :: entries.flatMap fun entry =>
    ["  " ++ entry.spelling, spaces 10 ++ entry.purpose])

/-! ## What is explained -/

/-- What a command is for. -/
def Verb.purpose : Verb → String
  | .latest => "Latest version of each unit"
  | .matching => "Every version matching the given criteria, in input order"

/-- The entry of a command. -/
def Verb.entry (verb : Verb) : Entry :=
  ⟨verb.name, verb.purpose⟩

/-- What an option is for, before the command (`none`) or behind it. -/
def Flag.purpose (verb : Option Verb) : Flag → String
  | .config => "Query configuration file (JSON)"
  | .locale => "Locale for translated properties, overriding the configuration"
  | .translations => "Translation catalog: \x7b \"<locale>\": \x7b \"<key>\": \"<text>\" \x7d \x7d"
  | .kind => "Only records of this kind"
  | .id =>
    "Identifier pattern, `*` matches any run of characters" ++
      if verb = some .matching then " [default: *]" else ""
  | .range => "Version range, e.g. `[1.0.0,2.0.0)` or a bare minimum"
  | .name => "Pattern for the translated `name` property"

/-- The entry of an option. Options have no letter, and leave its place free. -/
def Flag.entry (verb : Option Verb) (flag : Flag) : Entry :=
  ⟨spaces 4 ++ "--" ++ flag.longName ++ " <" ++ flag.longName.toUpper ++ ">", flag.purpose verb⟩

/-- The flags in the order of the explanation: those for all commands and those of the command by
turns. -/
def explainedFlags : Option Verb → List Flag
  | none => [.config, .locale, .translations]
  | some .latest => [.config, .kind, .id, .locale, .translations]
  | some .matching => [.config, .kind, .id, .locale, .range, .translations, .name]

/-- The entry of the option for help. -/
def helpEntry : Entry :=
  ⟨"-h, --" ++ helpName, "Print help"⟩

/-- The entry of the option for the version. -/
def versionEntry : Entry :=
  ⟨"-V, --version", "Print version"⟩

/-- What the command for help is for. -/
def helpPurpose : String :=
  "Print this message or the help of the given subcommand(s)"

/-! ## Pages -/

/-- The text for a topic. -/
def page (purpose usage : String) (lists : List String) : String :=
  "\n\n".intercalate (purpose :: ("Usage: provql " ++ usage) :: lists) ++ "\n"

/-- The text that explains a topic. -/
def Topic.page : Topic → String
  | .program =>
    CommandLine.page "Query versioned metadata records stored as JSON" "[OPTIONS] <COMMAND>"
      [table "Commands" [Verb.latest.entry, Verb.matching.entry, ⟨helpName, helpPurpose⟩],
       listing "Options"
        ((explainedFlags none).map (Flag.entry none) ++ [helpEntry, versionEntry])]
  | .command verb =>
    CommandLine.page verb.purpose (verb.name ++ " [OPTIONS] <RECORDS>")
      [table "Arguments" [⟨"<RECORDS>", "Records file (JSON array)"⟩],
       listing "Options" ((explainedFlags (some verb)).map (Flag.entry (some verb)) ++ [helpEntry])]
  | .help =>
    CommandLine.page helpPurpose (helpName ++ " [COMMAND]...")
      [table "Arguments" [⟨"[COMMAND]...", "Print help for the subcommand(s)"⟩]]

end RecordQuery.CommandLine
