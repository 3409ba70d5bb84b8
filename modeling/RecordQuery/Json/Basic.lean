/-!
# JSON values

A JSON value as programs exchange it. Numbers are of two kinds: an integer of sixty-four bits, and
the text of any other number. The members of an object are listed with their keys; a canonical
object lists them in ascending order of key, each key once (`Json.insert` keeps it so).
-/

namespace RecordQuery

/-- A JSON value. -/
inductive Json where
  /-- The value `null`. -/
  | null
  /-- A truth value. -/
  | boolean (b : Bool)
  /-- A number that is a signed integer of sixty-four bits. -/
  | integer (i : Int64)
  /-- Any other number, as it is written. -/
  | numeral (text : String)
  /-- A string. -/
  | string (s : String)
  /-- An array. -/
  | array (items : List Json)
  /-- An object: keys and values. -/
  | object (members : List (String × Json))
deriving Repr, Inhabited

namespace Json

/-! ## Members of an object -/

/-- Puts a member at its place in a list of members in ascending order of key. A key that is there
already gets the new value. -/
def insert (key : String) (value : α) : List (String × α) → List (String × α)
  | [] => [(key, value)]
  | (other, old) :: rest =>
    if key < other then (key, value) :: (other, old) :: rest
    else if key = other then (key, value) :: rest
    else (other, old) :: insert key value rest

/-- The members in ascending order of key; of several with one key the last counts. -/
def sorted (members : List (String × α)) : List (String × α) :=
  members.foldl (fun done member => insert member.1 member.2 done) []

/-- The value of the first member with the key. -/
def member? (key : String) (members : List (String × α)) : Option α :=
  (members.find? fun member => member.1 = key).map Prod.snd

/-! ## Views -/

/-- The text of a string. -/
def string? : Json → Option String
  | .string s => some s
  | _ => none

/-- The members of an object. -/
def members? : Json → Option (List (String × Json))
  | .object members => some members
  | _ => none

/-- What a value is, as a phrase with its article. -/
def describe : Json → String
  | .null => "null"
  | .boolean _ => "a boolean"
  | .integer _ | .numeral _ => "a number"
  | .string _ => "a string"
  | .array _ => "an array"
  | .object _ => "an object"

end Json

end RecordQuery
