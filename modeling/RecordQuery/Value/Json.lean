import RecordQuery.Json.Basic
import RecordQuery.Value.Text

/-!
# Values and JSON

`Value.ofJson` reads a value out of a JSON value: an object is a record whose kind is the text under
`kind`, and a number that is not an integer of sixty-four bits is its text. `Value.toJson` writes a
value: identifiers, versions, ranges and query objects become their text, and a record an object
with its kind under `kind`, which a property of that name replaces.
-/

namespace RecordQuery

/-! ## Names -/

/-- The key under which JSON holds the kind of a record. -/
def Record.kindKey : String := "kind"

/-- The kind of a record that names none. -/
def Record.defaultKind : String := "record"

/-- The kind that the members of an object name. -/
def Record.kindOfMembers (members : List (String × Json)) : String :=
  ((Json.member? kindKey members).bind Json.string?).getD defaultKind

namespace Value

/-! ## From JSON -/

mutual

/-- The value that a JSON value holds. -/
def ofJson : Json → Value
  | .null => .null
  | .boolean b => .boolean b
  | .integer i => .integer i
  | .numeral text => .string text
  | .string s => .string s
  | .array items => .list (ofItems items)
  | .object members =>
    ((Record.ofKind (Record.kindOfMembers members)).setAll (ofMembers members)).toValue

/-- The values that the elements of an array hold. -/
def ofItems : List Json → List Value
  | [] => []
  | item :: rest => ofJson item :: ofItems rest

/-- The properties that the members of an object hold, the kind left out. -/
def ofMembers : List (String × Json) → List (String × Value)
  | [] => []
  | (key, json) :: rest =>
    if key = Record.kindKey then ofMembers rest else (key, ofJson json) :: ofMembers rest

end

/-! ## To JSON -/

mutual

/-- The JSON value that stands for a value. -/
def toJson : Value → Json
  | .null => .null
  | .boolean b => .boolean b
  | .integer i => .integer i
  | .string s => .string s
  | .id item => .string item.text
  | .version v => .string v.text
  | .range r => .string r.text
  | .record kind properties =>
    .object (toMembers [(Record.kindKey, .string kind)] [] properties)
  | .list items => .array (toItems items)
  | .query ref => .string ref.text

/-- The JSON values that stand for the items of a list. -/
def toItems : List Value → List Json
  | [] => []
  | item :: rest => toJson item :: toItems rest

/-- Adds properties to the members of an object. Names in `done` had their first entry before. -/
def toMembers (members : List (String × Json)) (done : List String) :
    List (String × Value) → List (String × Json)
  | [] => members
  | (name, value) :: rest =>
    if done.contains name then toMembers members done rest
    else toMembers (Json.insert name (toJson value) members) (name :: done) rest

end

end Value

end RecordQuery
