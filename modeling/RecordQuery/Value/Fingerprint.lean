import RecordQuery.Value.Equality

/-!
# Fingerprints of values

A fingerprint is a digest of a value by which a set of values rules most candidates out before it
compares them. Equal values have equal fingerprints; unequal values may. The digest of a record is
its kind, the number of its properties and its `id`, none of which depends on the order of
properties.
-/

namespace RecordQuery.Value

/-! ## Fingerprints -/

/-- One piece of a fingerprint. -/
inductive Trait where
  /-- The type of a value. -/
  | type (name : String)
  /-- A truth value, also for the presence of a property. -/
  | flag (b : Bool)
  /-- A number. -/
  | number (n : Int)
  /-- A text. -/
  | text (s : String)
  /-- A version. -/
  | version (v : Version)
  /-- A range of versions. -/
  | range (r : VersionRange)
  /-- A query object. -/
  | query (ref : QueryRef)
deriving DecidableEq, Repr

mutual

/-- The fingerprint of a value. -/
def fingerprint (value : Value) : List Trait :=
  .type value.typeName ::
    match value with
    | .null => []
    | .boolean b => [.flag b]
    | .integer i => [.number i.toInt]
    | .string s => [.text s]
    | .id item => [.text item.text]
    | .version v => [.version v]
    | .range r => [.range r]
    | .query ref => [.query ref]
    | .list items => .number items.length :: fingerprints items
    | .record kind properties =>
      .text kind :: .number (Named.names properties).length :: idFingerprint properties

/-- The fingerprints of the items of a list, one after the other. -/
def fingerprints : List Value → List Trait
  | [] => []
  | item :: rest => fingerprint item ++ fingerprints rest

/-- The fingerprint of the property `id`, if there is one. -/
def idFingerprint : List (String × Value) → List Trait
  | [] => [.flag false]
  | (name, value) :: rest =>
    if name = Record.idProperty then .flag true :: fingerprint value else idFingerprint rest

end

/-! ## Sets of values -/

/-- A set of values, each kept with its fingerprint, the latest first. -/
structure Seen where
  /-- The values of the set. -/
  entries : List (List Trait × Value)

namespace Seen

/-- The set without values. -/
def empty : Seen := ⟨[]⟩

/-- Whether a value equals one of the set. -/
def contains (seen : Seen) (value : Value) : Bool :=
  let traits := value.fingerprint
  seen.entries.any fun entry => entry.1 == traits && entry.2 == value

/-- Adds a value. -/
def insert (seen : Seen) (value : Value) : Seen :=
  ⟨(value.fingerprint, value) :: seen.entries⟩

end Seen

end RecordQuery.Value
