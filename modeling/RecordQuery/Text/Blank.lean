/-!
# Blank characters

The characters that count as white space around a version, and the removal of a blank margin.

* `isBlank` is the property *White_Space* of the Unicode character database, twenty-five code
  points.
* `trim` drops the blank characters at both ends of a text and nothing else.
-/

namespace RecordQuery.Text

/-! ## The property -/

/-- The ranges of code points with the Unicode property White_Space, first and last included. -/
def blankRanges : List (Nat × Nat) :=
  [(0x0009, 0x000D), (0x0020, 0x0020), (0x0085, 0x0085), (0x00A0, 0x00A0), (0x1680, 0x1680),
   (0x2000, 0x200A), (0x2028, 0x2029), (0x202F, 0x202F), (0x205F, 0x205F), (0x3000, 0x3000)]

/-- A character is blank when its code point lies in one of `blankRanges`. -/
def isBlank (c : Char) : Bool :=
  blankRanges.any fun range => range.1 ≤ c.toNat && c.toNat ≤ range.2

/-- The ranges hold twenty-five code points. -/
example : (blankRanges.map fun range => range.2 + 1 - range.1).sum = 25 := rfl

/-! ## Margins -/

/-- The text without the blank characters at its beginning and at its end. -/
def trim (text : List Char) : List Char :=
  ((text.dropWhile isBlank).reverse.dropWhile isBlank).reverse

/-- The empty text has no margins. -/
@[simp] theorem trim_nil : trim [] = [] := rfl

end RecordQuery.Text
