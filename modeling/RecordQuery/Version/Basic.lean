/-!
# Versions

A version has three numbers and a qualifier, written `1.2.3.v2024`. It is ordered by its numbers
first and by its qualifier, character by character, last, so that `1.0.0 < 1.0.0.a < 1.0.1`.

`Version.text` is the written form; `RecordQuery.Version.Reader` reads it back.
-/

namespace RecordQuery

/-- A totally ordered version number. -/
structure Version where
  /-- The first number. -/
  major : UInt32
  /-- The second number. -/
  minor : UInt32
  /-- The third number. -/
  micro : UInt32
  /-- What follows the third number, the empty text for a plain version. -/
  qualifier : String
deriving DecidableEq, Repr, Inhabited

/-- Why a text is not a version or not a range of versions. -/
inductive VersionError where
  /-- The text is blank. -/
  | empty
  /-- A part of the text `input` that should be a number is not one. -/
  | invalidSegment (input segment : String)
  /-- The text begins like an interval and does not go on like one. -/
  | invalidRange (input : String)
deriving DecidableEq, Repr

/-- The wording of a version error. -/
def VersionError.message : VersionError → String
  | .empty => "Empty version string"
  | .invalidSegment input segment => "Invalid segment '" ++ segment ++ "' in version '" ++ input ++ "'"
  | .invalidRange input => "Invalid version range '" ++ input ++ "'"

namespace Version

/-! ## Order -/

/-- Versions compare by their numbers from left to right, then by qualifier. -/
instance : Ord Version where
  compare a b :=
    (compare a.major b.major).then <| (compare a.minor b.minor).then <|
      (compare a.micro b.micro).then <| compare a.qualifier b.qualifier

/-- Versions compare by their numbers, the first one that differs deciding, and then by their
qualifiers. -/
theorem compare_def (a b : Version) :
    compare a b = (compare a.major b.major).then ((compare a.minor b.minor).then
      ((compare a.micro b.micro).then (compare a.qualifier b.qualifier))) :=
  rfl

/-- The order is total and transitive: it is the lexicographic one. -/
instance : Std.TransOrd Version :=
  inferInstanceAs (Std.TransCmp (compareLex (compareOn Version.major)
    (compareLex (compareOn Version.minor) (compareLex (compareOn Version.micro)
      (compareOn Version.qualifier)))))

/-- The versions in ascending order. Versions that are equal keep their order. -/
def sort (versions : List Version) : List Version :=
  versions.mergeSort fun a b => (compare a b).isLE

/-! ## Written form -/

/-- A number in decimal digits, without leading zeros. -/
def numeral (n : UInt32) : List Char :=
  Nat.toDigits 10 n.toNat

/-- The written form: the numbers joined by points, then the qualifier if there is one. -/
def letters (v : Version) : List Char :=
  numeral v.major ++ '.' :: (numeral v.minor ++ '.' :: (numeral v.micro ++
    (if v.qualifier.isEmpty then [] else '.' :: v.qualifier.toList)))

/-- The written form of a version. -/
def text (v : Version) : String :=
  String.ofList v.letters

end Version

end RecordQuery
