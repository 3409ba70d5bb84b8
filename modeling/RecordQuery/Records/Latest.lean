import RecordQuery.Catalog

/-!
# The latest versions

The query for the latest version of every item of a record set, optionally only of one kind and
only of the items whose identifier matches a star pattern. The restrictions come first: an older
version of the wanted kind wins over a newer one of another kind.
-/

namespace RecordQuery

/-- The query for the latest versions. -/
structure LatestQuery where
  /-- The kind of the records, if only one is wanted. -/
  kind : Option String := none
  /-- The pattern for identifiers, if not all are wanted. -/
  idPattern : Option String := none

namespace LatestQuery

/-- The variable of the selection. -/
def itemName : String := "x"

/-- The conditions on a record, each with the name and the value of its parameter. -/
def conditions (query : LatestQuery) : List (Expr × String × Value) :=
  let item := Expr.var itemName
  (query.kind.map fun kind =>
      (item.fits (.parameter (.named "kind")), "kind", Value.string kind)).toList ++
    (query.idPattern.map fun pattern =>
      ((item.member "id").fits (.parameter (.named "id")), "id", Value.string pattern)).toList

/-- The query as a driver. Without conditions there is no selection. -/
def driver (query : LatestQuery) (config : QueryConfig) : CollectionDriver :=
  let selected :=
    match Expr.conjunction (query.conditions.map Prod.fst) with
    | some condition => Expr.everything.select ⟨itemName, condition⟩
    | none => Expr.everything
  { body := selected.latest
    parameters := .ofLists [] (query.conditions.map Prod.snd)
    config }

/-- Runs the query over records. -/
def run (query : LatestQuery) (config : QueryConfig) (records : List Value) :
    Reading (List Value) :=
  (query.driver config).perform (Catalog.queries []) (.ofValues records)

end LatestQuery

end RecordQuery
