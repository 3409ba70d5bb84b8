import RecordQuery.Json.Reader
import RecordQuery.Locale.Translations
import RecordQuery.Value.Json

/-!
# Record sets and catalogs of translations

A record set is a JSON array of objects, or one object for a set of one record. A catalog of
translations is an object of locales, each an object of texts by key. Both come as text or as the
contents of a file.
-/

namespace RecordQuery

/-! ## Errors -/

/-- Why a document cannot be used. -/
inductive LoadError where
  /-- There is no file, or it is no text. -/
  | unreadable
  /-- The text is not JSON. -/
  | malformed
  /-- A set of records was expected and something else found. -/
  | notRecords (found : String)
  /-- An element of a record set is something else than a record. -/
  | notARecord (index : Nat) (found : String)
  /-- A catalog of translations is not an object. -/
  | notACatalog
  /-- The texts of a locale are not an object. -/
  | notALocale (locale : String)
  /-- A text is not a string. -/
  | notAText (locale key : String)
deriving DecidableEq, Repr

/-- The wording of a load error, except for files that cannot be read and texts that are not JSON,
which are reported in other words. -/
def LoadError.message? : LoadError → Option String
  | .unreadable | .malformed => none
  | .notRecords found =>
    some ("Invalid input: expected an array of records, found " ++ found)
  | .notARecord index found =>
    some ("Invalid input: element " ++ index.repr ++ " is " ++ found ++ ", not a record")
  | .notACatalog => some "Invalid input: translations must be a JSON object"
  | .notALocale locale =>
    some ("Invalid input: translations for '" ++ locale ++ "' must be an object")
  | .notAText locale key =>
    some ("Invalid input: translation '" ++ locale ++ "." ++ key ++ "' is not a string")

/-! ## Files -/

/-- The text of a file, given its bytes if there is such a file. -/
def textOfFile (contents : Option ByteArray) : Except LoadError String :=
  match contents.bind String.fromUTF8? with
  | some text => .ok text
  | none => .error .unreadable

/-- The JSON value of a text. -/
def jsonOfText (text : String) : Except LoadError Json :=
  match Json.parse? text with
  | some json => .ok json
  | none => .error .malformed

/-! ## Records -/

namespace Records

/-- The records in the elements of an array, the first of which has the given index. -/
def ofElements (index : Nat) : List Json → Except LoadError (List Value)
  | [] => .ok []
  | .object members :: rest => do
    let later ← ofElements (index + 1) rest
    return Value.ofJson (.object members) :: later
  | other :: _ => .error (.notARecord index other.describe)

/-- The records of a document. -/
def ofJson : Json → Except LoadError (List Value)
  | .array items => ofElements 0 items
  | .object members => ofElements 0 [.object members]
  | other => .error (.notRecords other.describe)

/-- Reads a record set. -/
def parse (text : String) : Except LoadError (List Value) :=
  jsonOfText text >>= ofJson

/-- Reads a record set from a file. -/
def load (contents : Option ByteArray) : Except LoadError (List Value) :=
  textOfFile contents >>= parse

/-- The JSON document of a record set. -/
def render (records : List Value) : Json :=
  .array (records.map Value.toJson)

end Records

/-! ## Translations -/

namespace TranslationTable

/-- Adds the texts of one locale. -/
def addTexts (locale : String) :
    TranslationTable → List (String × Json) → Except LoadError TranslationTable
  | table, [] => .ok table
  | table, (key, .string text) :: rest => addTexts locale (table.insert locale key text) rest
  | _, (key, _) :: _ => .error (.notAText locale key)

/-- Adds the texts of several locales. -/
def addLocales : TranslationTable → List (String × Json) → Except LoadError TranslationTable
  | table, [] => .ok table
  | table, (locale, .object texts) :: rest => do
    let table ← addTexts locale table texts
    addLocales table rest
  | _, (locale, _) :: _ => .error (.notALocale locale)

/-- The catalog of a document. -/
def ofJson : Json → Except LoadError TranslationTable
  | .object locales => addLocales empty locales
  | _ => .error .notACatalog

/-- Reads a catalog of translations. -/
def parse (text : String) : Except LoadError TranslationTable :=
  jsonOfText text >>= ofJson

/-- Reads a catalog of translations from a file. -/
def load (contents : Option ByteArray) : Except LoadError TranslationTable :=
  textOfFile contents >>= parse

/-- The table of texts, each with its locale and key. -/
def ofList (entries : List (String × String × String)) : TranslationTable :=
  entries.foldl (fun table entry => table.insert entry.1 entry.2.1 entry.2.2) empty

end TranslationTable

end RecordQuery
