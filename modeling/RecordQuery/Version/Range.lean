import RecordQuery.Version.Reader

/-!
# Ranges of versions

A range is an interval of versions. It is written with its two bounds in brackets, `[1.0,2.0)`,
where a square bracket takes the bound in and a round one leaves it out; a bare version `1.0`
stands for every version from it on.
-/

namespace RecordQuery

/-! ## Bounds -/

/-- One end of a range. -/
structure VersionBound where
  /-- Where the range ends. -/
  version : Version
  /-- Whether the range holds that version itself. -/
  inclusive : Bool
deriving DecidableEq, Repr, Inhabited

namespace VersionBound

/-- As a lower bound: the version lies above it, or on it if it is inclusive. -/
def isBelow (bound : VersionBound) (version : Version) : Bool :=
  if bound.inclusive then (compare version bound.version).isGE
  else (compare version bound.version).isGT

/-- As an upper bound: the version lies below it, or on it if it is inclusive. -/
def isAbove (bound : VersionBound) (version : Version) : Bool :=
  if bound.inclusive then (compare version bound.version).isLE
  else (compare version bound.version).isLT

/-- The bracket before a lower bound. -/
def opening (bound : VersionBound) : Char :=
  if bound.inclusive then '[' else '('

/-- The bracket after an upper bound. -/
def closing (bound : VersionBound) : Char :=
  if bound.inclusive then ']' else ')'

end VersionBound

/-- An interval of versions. -/
structure VersionRange where
  /-- The lower end. -/
  minimum : VersionBound
  /-- The upper end; a range without one holds every version above its minimum. -/
  maximum : Option VersionBound
deriving DecidableEq, Repr, Inhabited

namespace VersionRange

/-! ## Building ranges -/

/-- Every version at or above `minimum`. -/
def atLeast (minimum : Version) : VersionRange :=
  ⟨⟨minimum, true⟩, none⟩

/-- The versions between two bounds. -/
def between (minimum maximum : VersionBound) : VersionRange :=
  ⟨minimum, some maximum⟩

/-- The one version given. -/
def exactly (version : Version) : VersionRange :=
  between ⟨version, true⟩ ⟨version, true⟩

/-! ## Membership -/

/-- Whether a version lies in the range. -/
def contains (range : VersionRange) (version : Version) : Bool :=
  range.minimum.isBelow version && range.maximum.all (·.isAbove version)

/-! ## Written form -/

/-- The written form: the bare minimum where that is what the range means, else the bounds in
brackets. A missing maximum leaves its place empty. -/
def letters (range : VersionRange) : List Char :=
  match range.maximum with
  | none =>
    if range.minimum.inclusive then range.minimum.version.letters
    else '(' :: (range.minimum.version.letters ++ [',', ')'])
  | some maximum =>
    range.minimum.opening :: (range.minimum.version.letters ++
      ',' :: (maximum.version.letters ++ [maximum.closing]))

/-- The written form of a range. -/
def text (range : VersionRange) : String :=
  String.ofList range.letters

/-! ## Reading -/

/-- What a closing bracket says of the bound before it. -/
def closingBracket? : Char → Option Bool
  | ']' => some true
  | ')' => some false
  | _ => none

/-- Reads an interval after its opening bracket, whose meaning is `includeMinimum`. -/
def parseInterval (input : String) (includeMinimum : Bool) (body : List Char) :
    Except VersionError VersionRange :=
  match body.getLast? >>= closingBracket?, cut body.dropLast with
  | some includeMaximum, (low, some high) => do
    let minimum ← Version.parse (String.ofList low)
    let maximum ← Version.parse (String.ofList high)
    return between ⟨minimum, includeMinimum⟩ ⟨maximum, includeMaximum⟩
  | _, _ => .error (.invalidRange input)
where
  /-- The two bounds stand before and after the first comma. -/
  cut := Text.cut ','

/-- Reads a range: an interval if the text begins with a bracket, else a bare minimum. -/
def parse (input : String) : Except VersionError VersionRange :=
  match Text.trim input.toList with
  | [] => .error .empty
  | '[' :: body => parseInterval input true body
  | '(' :: body => parseInterval input false body
  | text => atLeast <$> Version.parse (String.ofList text)

/-- Whether the written form of the range is read back as the same range. -/
def readsBack (range : VersionRange) : Bool :=
  match parse range.text with
  | .ok reread => reread = range
  | .error _ => false

end VersionRange

end RecordQuery
