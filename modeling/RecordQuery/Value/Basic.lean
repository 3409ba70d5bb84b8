import RecordQuery.ItemId
import RecordQuery.Version.Range

/-!
# Values

What an expression evaluates to. A record has a kind and named properties, in the order in which
they were first set; where a list of properties names one twice, the first entry counts.

Query objects are opaque to the language. A value refers to one by name (`QueryRef`), and what the
name stands for is looked up where the object is called, so that two references are equal exactly
when they name the same object of the same form.
-/

namespace RecordQuery

/-- A reference to a query object. -/
inductive QueryRef where
  /-- An object that tests one candidate at a time. -/
  | matching (name : String)
  /-- An object that turns a sequence into a sequence. -/
  | sequence (name : String)
deriving DecidableEq, Repr

/-- A value of the query language. -/
inductive Value where
  /-- The absent value. -/
  | null
  /-- A truth value. -/
  | boolean (b : Bool)
  /-- A signed integer of sixty-four bits. -/
  | integer (i : Int64)
  /-- A text. -/
  | string (s : String)
  /-- An item identifier. -/
  | id (item : ItemId)
  /-- A version. -/
  | version (v : Version)
  /-- A range of versions. -/
  | range (r : VersionRange)
  /-- A record of a kind, with its properties. -/
  | record (kind : String) (properties : List (String × Value))
  /-- A list. -/
  | list (items : List Value)
  /-- A query object. -/
  | query (ref : QueryRef)
deriving Repr, Inhabited

namespace Value

/-- The name of a value's type. -/
def typeName : Value → String
  | .null => "null"
  | .boolean _ => "boolean"
  | .integer _ => "integer"
  | .string _ => "string"
  | .id _ => "id"
  | .version _ => "version"
  | .range _ => "version-range"
  | .record .. => "record"
  | .list _ => "list"
  | .query _ => "query"

/-! ## Views -/

/-- Only the truth value `true` counts as true. -/
def isTrue : Value → Bool
  | .boolean true => true
  | _ => false

/-- A truth value is true if it says so. -/
@[simp] theorem isTrue_boolean (b : Bool) : (boolean b).isTrue = b := by
  cases b <;> rfl

/-- Whether the value is the absent one. -/
def isNull : Value → Bool
  | .null => true
  | _ => false

/-- The text of a string or an identifier. -/
def text? : Value → Option String
  | .string s => some s
  | .id item => some item.text
  | _ => none

/-- The number of an integer. -/
def integer? : Value → Option Int64
  | .integer i => some i
  | _ => none

/-- The items of a list. -/
def list? : Value → Option (List Value)
  | .list items => some items
  | _ => none

/-- The kind of a record. -/
def kind? : Value → Option String
  | .record kind _ => some kind
  | _ => none

/-- The items of the value as a sequence: a list has its items, the absent value has none, and any
other value is the one item. -/
def items : Value → List Value
  | .null => []
  | .list items => items
  | other => [other]

end Value

end RecordQuery
