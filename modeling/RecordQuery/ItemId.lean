/-!
# Item identifiers

The identifier of a versioned item, such as `org.example.core`. Identifiers are opaque: they are
compared, and their text is never taken apart.
-/

namespace RecordQuery

/-- The identifier of a versioned item. -/
structure ItemId where
  /-- The identifier as it is written. -/
  text : String
deriving DecidableEq, Repr, Inhabited

end RecordQuery
