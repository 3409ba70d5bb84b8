import RecordQuery.Named
import RecordQuery.Value.Basic

/-!
# Records

A record is a bag of named properties with a kind. Two properties are special: a text set as `id`
is stored as an identifier, and a text set as `version` is stored as a version if it can be read as
one. A record that holds both, an identifier and a version, has the *versioned* shape.
-/

namespace RecordQuery

/-- A record: its kind and its properties, in the order in which they were first set. -/
structure Record where
  /-- What kind of thing the record describes, such as `unit` or `feature`. -/
  kind : String
  /-- The properties. -/
  properties : List (String × Value)
deriving Inhabited

namespace Record

/-! ## Properties -/

/-- The name of the property that identifies a record. -/
def idProperty : String := "id"

/-- The name of the property that holds the version of a record. -/
def versionProperty : String := "version"

/-- The value that a property of that name is stored as. -/
def stored (name : String) (value : Value) : Value :=
  match value with
  | .string s =>
    if name = idProperty then .id ⟨s⟩
    else if name = versionProperty then
      match Version.parse s with
      | .ok v => .version v
      | .error _ => .string s
    else .string s
  | value => value

/-! ## Operations -/

/-- A record without properties. -/
def ofKind (kind : String) : Record :=
  ⟨kind, []⟩

/-- Sets a property. A name that is there already keeps its place. -/
def set (record : Record) (name : String) (value : Value) : Record :=
  { record with properties := Named.put name (stored name value) record.properties }

/-- Sets several properties, in order. -/
def setAll (record : Record) (properties : List (String × Value)) : Record :=
  properties.foldl (fun record entry => record.set entry.1 entry.2) record

/-- A record of the versioned shape. -/
def versioned (kind : String) (id : ItemId) (version : Version) : Record :=
  ((ofKind kind).set idProperty (.id id)).set versionProperty (.version version)

/-- The value of a property. -/
def property? (record : Record) (name : String) : Option Value :=
  Named.lookup name record.properties

/-- How many properties the record has. -/
def size (record : Record) : Nat :=
  (Named.names record.properties).length

/-- The identifier, if the property `id` is one. -/
def identifier? (record : Record) : Option ItemId :=
  match record.property? idProperty with
  | some (.id id) => some id
  | _ => none

/-- The version, if the property `version` is one. -/
def version? (record : Record) : Option Version :=
  match record.property? versionProperty with
  | some (.version v) => some v
  | _ => none

/-- The identifier and the version of a record that has both. -/
def versioned? (record : Record) : Option (ItemId × Version) :=
  match record.identifier?, record.version? with
  | some id, some v => some (id, v)
  | _, _ => none

/-- A record of the versioned shape has the identifier that it is a version of. -/
theorem identifier?_of_versioned? {record : Record} {id : ItemId} {version : Version}
    (h : record.versioned? = some (id, version)) : record.identifier? = some id := by
  unfold versioned? at h
  split at h
  · rename_i found version' hfound hversion
    obtain ⟨rfl, rfl⟩ := Prod.mk.inj (Option.some.inj h)
    exact hfound
  · cases h

/-- The record as a value. -/
def toValue (record : Record) : Value :=
  .record record.kind record.properties

end Record

namespace Value

/-- The record that a value is. -/
def record? : Value → Option Record
  | .record kind properties => some ⟨kind, properties⟩
  | _ => none

/-- The identifier and the version of a value of the versioned shape. -/
def versioned? (value : Value) : Option (ItemId × Version) :=
  value.record? >>= Record.versioned?

end Value

end RecordQuery
