import RecordQuery.Catalog

/-!
# Matching versions

The query for every version of a record set that meets some criteria: the identifier matches a star
pattern and, where they are given, the version lies in a range and the translated name matches a
pattern. With a kind the records of that kind are considered, else those with an identifier and a
version.
-/

namespace RecordQuery

/-- The criteria of a match. -/
structure MatchFilter where
  /-- The kind of the records, if one is wanted. -/
  kind : Option String := none
  /-- The pattern for identifiers. -/
  idPattern : String := "*"
  /-- The range of versions, if not all are wanted. -/
  range : Option VersionRange := none
  /-- The pattern for translated names, if not all are wanted. -/
  namePattern : Option String := none

namespace MatchFilter

/-- The condition on identifiers, with the name and the value of its parameter. -/
def idCondition (filter : MatchFilter) : Expr × String × Value :=
  ((Expr.this.member "id").fits (.parameter (.named "id")), "id", .string filter.idPattern)

/-- The other conditions, each with the name and the value of its parameter. -/
def furtherConditions (filter : MatchFilter) : List (Expr × String × Value) :=
  (filter.range.map fun range =>
      ((Expr.this.member "version").fits (.parameter (.named "range")), "range",
        Value.range range)).toList ++
    (filter.namePattern.map fun pattern =>
      ((Expr.this.translated "name").fits (.parameter (.named "name")), "name",
        Value.string pattern)).toList

/-- The predicate on a record: all conditions, from left to right. -/
def predicate (filter : MatchFilter) : Expr :=
  (filter.furtherConditions.map Prod.fst).foldl Expr.and filter.idCondition.1

/-- The criteria as a driver. -/
def driver (filter : MatchFilter) (config : QueryConfig)
    (support : Option (String → String → Option String)) : MatchDriver where
  body := filter.predicate
  parameters := .ofLists [] (filter.idCondition.2 :: filter.furtherConditions.map Prod.snd)
  config := config
  support := support
  shape := match filter.kind with
    | some kind => .kind kind
    | none => .versioned

/-- Runs the query over records. -/
def run (filter : MatchFilter) (config : QueryConfig)
    (support : Option (String → String → Option String)) (records : List Value) :
    Reading (List Value) :=
  (filter.driver config support).perform (Catalog.queries []) (.ofValues records)

end MatchFilter

end RecordQuery
