import RecordQuery.Json.Basic

/-!
# Writing JSON

A string is written in quotes with the quote, the backslash and the control characters below the
space escaped, the five common ones by a letter. A document is written with one element or member a
line, two blanks deeper than the bracket around it; brackets with nothing between them stay
together.
-/

namespace RecordQuery.Json

/-! ## Strings -/

/-- A digit of a hexadecimal number. -/
def hexDigit (n : Nat) : Char :=
  Nat.digitChar n

/-- One character of a string, as it is written. -/
def escape (c : Char) : List Char :=
  match c with
  | '"' => ['\\', '"']
  | '\\' => ['\\', '\\']
  | '\x08' => ['\\', 'b']
  | '\x0c' => ['\\', 'f']
  | '\n' => ['\\', 'n']
  | '\r' => ['\\', 'r']
  | '\t' => ['\\', 't']
  | c =>
    if c < ' ' then ['\\', 'u', '0', '0', hexDigit (c.toNat / 16), hexDigit (c.toNat % 16)]
    else [c]

/-- A string in quotes. -/
def quote (s : String) : String :=
  String.ofList ('"' :: (s.toList.flatMap escape ++ ['"']))

/-! ## Documents -/

/-- A line break and the margin of a line. -/
def newLine (margin : Nat) : String :=
  "\n" ++ String.ofList (List.replicate (2 * margin) ' ')

mutual

/-- A value whose first line is written at the given margin. -/
def prettyAt (margin : Nat) : Json → String
  | .null => "null"
  | .boolean true => "true"
  | .boolean false => "false"
  | .integer i => i.toInt.repr
  | .numeral text => text
  | .string s => quote s
  | .array [] => "[]"
  | .array (item :: rest) =>
    "[" ++ newLine (margin + 1) ++ prettyAt (margin + 1) item ++
      prettyItems (margin + 1) rest ++ newLine margin ++ "]"
  | .object [] => "\x7b\x7d"
  | .object ((key, value) :: rest) =>
    "\x7b" ++ newLine (margin + 1) ++ quote key ++ ": " ++ prettyAt (margin + 1) value ++
      prettyMembers (margin + 1) rest ++ newLine margin ++ "\x7d"

/-- The elements after the first, each on a line of its own. -/
def prettyItems (margin : Nat) : List Json → String
  | [] => ""
  | item :: rest => "," ++ newLine margin ++ prettyAt margin item ++ prettyItems margin rest

/-- The members after the first, each on a line of its own. -/
def prettyMembers (margin : Nat) : List (String × Json) → String
  | [] => ""
  | (key, value) :: rest =>
    "," ++ newLine margin ++ quote key ++ ": " ++ prettyAt margin value ++ prettyMembers margin rest

end

/-- A document on several lines. -/
def pretty (json : Json) : String :=
  prettyAt 0 json

end RecordQuery.Json
