/-!
# Tokens of JSON text

A JSON text is cut into brackets, separators, words, numbers and strings, with blank characters
(space, tab, line feed, carriage return) between them. A token keeps what is written: the digits of
a number, and the code of each `\u` escape of a string.
-/

namespace RecordQuery.Json

/-! ## Tokens -/

/-- A number as it is written. -/
structure NumberLiteral where
  /-- Whether a minus sign stands before it. -/
  negative : Bool
  /-- The digits before the point. -/
  whole : List Char
  /-- The digits after the point, if there is one. -/
  fraction : Option (List Char)
  /-- The digits of the exponent and whether it is negative, if there is one. -/
  exponent : Option (Bool × List Char)
deriving DecidableEq, Repr

/-- One element of a string as it is written. -/
inductive Glyph where
  /-- A character, written as itself or by a short escape. -/
  | plain (c : Char)
  /-- The code of a `\u` escape. -/
  | code (unit : Nat)
deriving DecidableEq, Repr

/-- A token of JSON text. -/
inductive Token where
  /-- The bracket that opens an array. -/
  | arrayStart
  /-- The bracket that closes an array. -/
  | arrayEnd
  /-- The brace that opens an object. -/
  | objectStart
  /-- The brace that closes an object. -/
  | objectEnd
  /-- The separator of elements and members. -/
  | comma
  /-- The separator of key and value. -/
  | colon
  /-- The word `null`. -/
  | null
  /-- The word `true` or `false`. -/
  | boolean (b : Bool)
  /-- A number. -/
  | number (literal : NumberLiteral)
  /-- A string. -/
  | string (glyphs : List Glyph)
deriving DecidableEq, Repr

/-! ## Numbers -/

/-- The digits at the head of a text and what follows them. There has to be a digit. -/
def scanDigits (text : List Char) : Option (List Char × List Char) :=
  let (digits, rest) := text.span Char.isDigit
  if digits = [] then none else some (digits, rest)

/-- The digits before the point: one zero, or digits of which the first is none. -/
def scanWhole (text : List Char) : Option (List Char × List Char) := do
  let (digits, rest) ← scanDigits text
  if digits.head? = some '0' ∧ digits ≠ ['0'] then none else some (digits, rest)

/-- The fraction, where a point announces one. -/
def scanFraction : List Char → Option (Option (List Char) × List Char)
  | '.' :: text => do
    let (digits, rest) ← scanDigits text
    return (some digits, rest)
  | text => some (none, text)

/-- The exponent, where an `e` announces one. -/
def scanExponent : List Char → Option (Option (Bool × List Char) × List Char)
  | c :: text =>
    if c = 'e' ∨ c = 'E' then do
      let (negative, text) := match text with
        | '-' :: text => (true, text)
        | '+' :: text => (false, text)
        | text => (false, text)
      let (digits, rest) ← scanDigits text
      return (some (negative, digits), rest)
    else some (none, c :: text)
  | [] => some (none, [])

/-- A number without its sign. -/
def scanNumber (negative : Bool) (text : List Char) : Option (Token × List Char) := do
  let (whole, rest) ← scanWhole text
  let (fraction, rest) ← scanFraction rest
  let (exponent, rest) ← scanExponent rest
  return (.number ⟨negative, whole, fraction, exponent⟩, rest)

/-! ## Strings -/

/-- The value of a hexadecimal digit. -/
def hexValue? (c : Char) : Option Nat :=
  if '0' ≤ c ∧ c ≤ '9' then some (c.toNat - '0'.toNat)
  else if 'a' ≤ c ∧ c ≤ 'f' then some (c.toNat - 'a'.toNat + 10)
  else if 'A' ≤ c ∧ c ≤ 'F' then some (c.toNat - 'A'.toNat + 10)
  else none

/-- The character that a short escape stands for. -/
def shortEscape? : Char → Option Char
  | '"' => some '"'
  | '\\' => some '\\'
  | '/' => some '/'
  | 'b' => some '\x08'
  | 'f' => some '\x0c'
  | 'n' => some '\n'
  | 'r' => some '\r'
  | 't' => some '\t'
  | _ => none

/-- A string after its opening quote. Control characters below the space have to be escaped. -/
def scanString : List Char → Option (List Glyph × List Char)
  | [] => none
  | '"' :: rest => some ([], rest)
  | '\\' :: 'u' :: a :: b :: c :: d :: rest => do
    let code := (((← hexValue? a) * 16 + (← hexValue? b)) * 16 + (← hexValue? c)) * 16 + (← hexValue? d)
    let (glyphs, rest) ← scanString rest
    return (.code code :: glyphs, rest)
  | '\\' :: e :: rest => do
    let c ← shortEscape? e
    let (glyphs, rest) ← scanString rest
    return (.plain c :: glyphs, rest)
  | c :: rest =>
    if c = '\\' ∨ c < ' ' then none
    else do
      let (glyphs, rest) ← scanString rest
      return (.plain c :: glyphs, rest)

/-! ## Texts -/

/-- The blank characters of JSON. -/
def isBlank (c : Char) : Bool :=
  c = ' ' || c = '\t' || c = '\n' || c = '\r'

/-- The token at the head of a text that does not begin with a blank. -/
def scanToken : List Char → Option (Token × List Char)
  | '[' :: rest => some (.arrayStart, rest)
  | ']' :: rest => some (.arrayEnd, rest)
  | '\x7b' :: rest => some (.objectStart, rest)
  | '\x7d' :: rest => some (.objectEnd, rest)
  | ',' :: rest => some (.comma, rest)
  | ':' :: rest => some (.colon, rest)
  | 'n' :: 'u' :: 'l' :: 'l' :: rest => some (.null, rest)
  | 't' :: 'r' :: 'u' :: 'e' :: rest => some (.boolean true, rest)
  | 'f' :: 'a' :: 'l' :: 's' :: 'e' :: rest => some (.boolean false, rest)
  | '"' :: rest => do
    let (glyphs, rest) ← scanString rest
    return (.string glyphs, rest)
  | '-' :: rest => scanNumber true rest
  | text => scanNumber false text

/-- The tokens of a text, at most `fuel` of them. -/
def scanTokens : Nat → List Char → Option (List Token)
  | 0, text => if text.all isBlank then some [] else none
  | fuel + 1, text =>
    match text.dropWhile isBlank with
    | [] => some []
    | c :: rest => do
      let (token, rest) ← scanToken (c :: rest)
      let tokens ← scanTokens fuel rest
      return token :: tokens

/-- The tokens of a text. Each has at least one character, so that the text cannot hold more tokens
than characters. -/
def tokens? (text : List Char) : Option (List Token) :=
  scanTokens text.length text

end RecordQuery.Json
