import RecordQuery.Json.Token

/-!
# Drafts of JSON documents

A draft is a JSON document as it is written: the grammar is checked and nothing else. Members of an
object stand in the order of the text, repeated keys included, and numbers and strings are still
literals.

Drafts are built from tokens one at a time (`Parsing.step`). What is open around the next token is
kept in a list of frames, innermost first, so that the depth of a document has no bound here.
-/

namespace RecordQuery.Json

/-- A JSON document as it is written. -/
inductive Draft where
  /-- The value `null`. -/
  | null
  /-- A truth value. -/
  | boolean (b : Bool)
  /-- A number. -/
  | number (literal : NumberLiteral)
  /-- A string. -/
  | string (glyphs : List Glyph)
  /-- An array. -/
  | array (items : List Draft)
  /-- An object, its members in the order of the text. -/
  | object (members : List (List Glyph × Draft))
deriving Repr, Inhabited

/-! ## Building a draft from tokens -/

/-- An array or object that is open. -/
inductive Frame where
  /-- The elements so far, last first. -/
  | array (items : List Draft)
  /-- The members so far, last first, and the key of the member that is open. -/
  | object (members : List (List Glyph × Draft)) (key : List Glyph)

/-- What may come next. -/
inductive Parsing where
  /-- A value. -/
  | atValue (frames : List Frame)
  /-- The first element of an array, or its end. -/
  | atFirstItem (frames : List Frame)
  /-- The first key of an object, or its end. -/
  | atFirstKey (frames : List Frame)
  /-- A further key of an object with these members. -/
  | atKey (members : List (List Glyph × Draft)) (frames : List Frame)
  /-- The colon after the innermost key. -/
  | atColon (frames : List Frame)
  /-- A separator or closing bracket after a finished value, or the end of the text. -/
  | behind (value : Draft) (frames : List Frame)

namespace Parsing

/-- The first token of a value. -/
def beginValue (frames : List Frame) : Token → Option Parsing
  | .null => some (.behind .null frames)
  | .boolean b => some (.behind (.boolean b) frames)
  | .number literal => some (.behind (.number literal) frames)
  | .string glyphs => some (.behind (.string glyphs) frames)
  | .arrayStart => some (.atFirstItem frames)
  | .objectStart => some (.atFirstKey frames)
  | _ => none

/-- Takes one token in. -/
def step : Parsing → Token → Option Parsing
  | .atValue frames, token => beginValue frames token
  | .atFirstItem frames, .arrayEnd => some (.behind (.array []) frames)
  | .atFirstItem frames, token => beginValue (.array [] :: frames) token
  | .atFirstKey frames, .objectEnd => some (.behind (.object []) frames)
  | .atFirstKey frames, .string key => some (.atColon (.object [] key :: frames))
  | .atKey members frames, .string key => some (.atColon (.object members key :: frames))
  | .atColon frames, .colon => some (.atValue frames)
  | .behind value (.array items :: frames), .comma => some (.atValue (.array (value :: items) :: frames))
  | .behind value (.array items :: frames), .arrayEnd =>
    some (.behind (.array (value :: items).reverse) frames)
  | .behind value (.object members key :: frames), .comma =>
    some (.atKey ((key, value) :: members) frames)
  | .behind value (.object members key :: frames), .objectEnd =>
    some (.behind (.object ((key, value) :: members).reverse) frames)
  | _, _ => none

/-- The finished document, if nothing is open. -/
def finish? : Parsing → Option Draft
  | .behind value [] => some value
  | _ => none

end Parsing

/-- The draft that the tokens make up: one value and nothing after it. -/
def Draft.ofTokens? (tokens : List Token) : Option Draft :=
  tokens.foldlM Parsing.step (.atValue []) >>= Parsing.finish?

/-- The draft of a JSON text. -/
def Draft.parse? (text : String) : Option Draft :=
  tokens? text.toList >>= Draft.ofTokens?

end RecordQuery.Json
