import RecordQuery.Value.Record

/-!
# Values as text

How a value is shown in messages and in expressions. Strings stand in single quotes, unescaped;
lists in square brackets; a record shows its kind with its identifier and version if it has both,
else with the number of its properties.
-/

namespace RecordQuery

/-- How a query object is shown: by its form. -/
def QueryRef.text : QueryRef → String
  | .matching _ => "<match query>"
  | .sequence _ => "<sequence query>"

/-- How a record is shown. -/
def Record.text (record : Record) : String :=
  match record.versioned? with
  | some (id, version) => record.kind ++ " " ++ id.text ++ "/" ++ version.text
  | none => record.kind ++ " \x7b" ++ record.size.repr ++ " properties\x7d"

namespace Value

mutual

/-- How a value is shown. -/
def text : Value → String
  | .null => "null"
  | .boolean true => "true"
  | .boolean false => "false"
  | .integer i => i.toInt.repr
  | .string s => "'" ++ s ++ "'"
  | .id item => item.text
  | .version v => v.text
  | .range r => r.text
  | .record kind properties => (⟨kind, properties⟩ : Record).text
  | .list [] => "[]"
  | .list (item :: rest) => "[" ++ text item ++ itemsText rest ++ "]"
  | .query ref => ref.text

/-- How the items of a list after the first are shown. -/
def itemsText : List Value → String
  | [] => ""
  | item :: rest => ", " ++ text item ++ itemsText rest

end

end Value

end RecordQuery
