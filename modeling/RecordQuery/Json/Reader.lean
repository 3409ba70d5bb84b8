import RecordQuery.Json.Draft
import RecordQuery.Json.Number

/-!
# Reading JSON

A draft becomes a value when its literals have one: numbers fit a double, escapes make up
characters, and at most `maxDepth` arrays and objects are nested. Objects become canonical: their
members are sorted by key, and of repeated keys the last counts.
-/

namespace RecordQuery.Json

/-! ## Strings -/

/-- The first of the two escapes that stand for one character beyond the basic plane. -/
def isHighSurrogate (code : Nat) : Bool :=
  0xD800 ≤ code && code < 0xDC00

/-- The second of the two. -/
def isLowSurrogate (code : Nat) : Bool :=
  0xDC00 ≤ code && code < 0xE000

/-- The characters that a string stands for. Half of a pair of escapes alone stands for none. -/
def decodeGlyphs? : List Glyph → Option (List Char)
  | [] => some []
  | .plain c :: rest => (c :: ·) <$> decodeGlyphs? rest
  | .code high :: rest =>
    if isHighSurrogate high then
      match rest with
      | .code low :: rest =>
        if isLowSurrogate low then
          (Char.ofNat (0x10000 + (high - 0xD800) * 0x400 + (low - 0xDC00)) :: ·) <$> decodeGlyphs? rest
        else none
      | _ => none
    else if isLowSurrogate high then none
    else (Char.ofNat high :: ·) <$> decodeGlyphs? rest

/-- The text that a string stands for. -/
def text? (glyphs : List Glyph) : Option String :=
  String.ofList <$> decodeGlyphs? glyphs

/-! ## Documents -/

/-- How many arrays and objects may be nested. -/
def maxDepth : Nat := 127

mutual

/-- The value of a draft below which `depth` more arrays and objects may be nested. -/
def settle? (depth : Nat) : Draft → Option Json
  | .null => some .null
  | .boolean b => some (.boolean b)
  | .number literal => literal.value?
  | .string glyphs => .string <$> text? glyphs
  | .array items =>
    match depth with
    | 0 => none
    | depth + 1 => .array <$> settleItems? depth items
  | .object members =>
    match depth with
    | 0 => none
    | depth + 1 => (.object <| sorted ·) <$> settleMembers? depth members

/-- The values of the elements of an array. -/
def settleItems? (depth : Nat) : List Draft → Option (List Json)
  | [] => some []
  | item :: rest => do
    let item ← settle? depth item
    let rest ← settleItems? depth rest
    return item :: rest

/-- The members of an object, in the order of the text. -/
def settleMembers? (depth : Nat) : List (List Glyph × Draft) → Option (List (String × Json))
  | [] => some []
  | (key, value) :: rest => do
    let key ← text? key
    let value ← settle? depth value
    let rest ← settleMembers? depth rest
    return (key, value) :: rest

end

/-- Reads a JSON text. -/
def parse? (text : String) : Option Json :=
  Draft.parse? text >>= settle? maxDepth

end RecordQuery.Json
