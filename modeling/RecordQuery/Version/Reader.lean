import RecordQuery.Text.Blank
import RecordQuery.Text.Cut
import RecordQuery.Version.Basic

/-!
# Reading versions

A version is read from up to four parts separated by points, inside a blank margin. The first
three parts are numbers and may be left out from the right, a number left out being zero; all that
follows a third point is the qualifier, points included.

A number is one or more decimal digits, of value below `2 ^ 32`, that a plus sign may precede.
-/

namespace RecordQuery.Version

open RecordQuery.Text

/-! ## Numbers -/

/-- The text without one plus sign at its head. -/
def unsigned : List Char → List Char
  | '+' :: digits => digits
  | digits => digits

/-- The number that a part of a version stands for. -/
def number? (part : List Char) : Option UInt32 :=
  let digits := unsigned part
  if digits ≠ [] ∧ digits.all Char.isDigit ∧ Nat.ofDigitChars 10 digits 0 < UInt32.size then
    some (UInt32.ofNat (Nat.ofDigitChars 10 digits 0))
  else none

/-! ## Parts -/

/-- Reads one number at the head of what is left of the text `input`. Where nothing is left, not
even an empty part, the number is zero. -/
def readNumber (input : String) :
    Option (List Char) → Except VersionError (UInt32 × Option (List Char))
  | none => .ok (0, none)
  | some rest =>
    match number? (cut '.' rest).1 with
    | some n => .ok (n, (cut '.' rest).2)
    | none => .error (.invalidSegment input (String.ofList (cut '.' rest).1))

/-- Reads a version. Errors repeat the whole input, blank margin included. -/
def parse (input : String) : Except VersionError Version :=
  match trim input.toList with
  | [] => .error .empty
  | c :: rest => do
    let (major, rest) ← readNumber input (some (c :: rest))
    let (minor, rest) ← readNumber input rest
    let (micro, rest) ← readNumber input rest
    return ⟨major, minor, micro, String.ofList (rest.getD [])⟩

end RecordQuery.Version
