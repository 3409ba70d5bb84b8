import RecordQuery.Driver.Collection
import RecordQuery.Driver.Match

/-!
# Catalogs of query objects

A catalog declares query objects by name: the two ready-made ones, and drivers. An object may be
called by any other, since values can carry references to objects past the place of their
declaration; `Catalog.registry` bounds how deep calls are nested, and `Catalog.queries` is the
registry with the bound that is used.
-/

namespace RecordQuery

/-! ## Ready-made query objects -/

/-- The name by which the ready-made test of candidates reports. -/
def customName : String := "custom"

/-- Tests candidates by identifier: those of the versioned shape with the identifier match, or every
candidate if there is no identifier. A candidate equal to `refused` is an error. -/
def MatchQuery.byId (name : String) (item : Option String) (refused : Option Value) : MatchQuery :=
  .ofTest [.reached name .pre] test [.reached name .post]
where
  /-- The answer to a candidate. -/
  test (candidate : Value) : Verdict :=
    ⟨if refused.any (· == candidate) then
        .error (.evaluation customName 0 (.reported ("refused " ++ candidate.text)))
      else .ok (item.all fun item => candidate.versioned?.any fun found => found.1.text = item),
      [.reached name .test]⟩

/-- Passes failures and the items of the versioned shape whose major version is at least `least`. -/
def SequenceQuery.fromMajor (name : String) (least : Int) : SequenceQuery :=
  .passing [.reached name .perform] pass
where
  /-- What becomes of an item. -/
  pass : Item → Option Item
    | .error e => some (.error e)
    | .ok value =>
      if value.versioned?.any fun found => least ≤ found.2.major.toNat then some (.ok value) else none

/-! ## Catalogs -/

/-- How a query object is made. -/
inductive Declaration where
  /-- A test of candidates by identifier. -/
  | byId (item : Option String) (refused : Option Value)
  /-- A filter by major version. -/
  | fromMajor (least : Int)
  /-- A match driver. -/
  | matching (driver : MatchDriver)
  /-- A collection driver. -/
  | collection (driver : CollectionDriver)

namespace Declaration

/-- The reference to an object that is declared under a name. -/
def ref (name : String) : Declaration → QueryRef
  | .byId .. | .matching _ => .matching name
  | .fromMajor _ | .collection _ => .sequence name

/-- The object as one that tests candidates. -/
def matching? (name : String) (queries : Registry) : Declaration → Option MatchQuery
  | .byId item refused => some (.byId name item refused)
  | .matching driver => some (driver.toQuery queries)
  | _ => none

/-- The object as one that takes sequences. -/
def sequence? (name : String) (queries : Registry) : Declaration → Option SequenceQuery
  | .fromMajor least => some (.fromMajor name least)
  | .collection driver => some (driver.toQuery queries)
  | _ => none

end Declaration

/-- Declarations of query objects, by name. -/
abbrev Catalog := List (String × Declaration)

namespace Registry

/-- The registry in which every call fails. -/
def failing (reason : String) : Registry where
  matching _ := .ofTest [] (fun _ => ⟨.error error, []⟩) []
  sequence _ := .collecting fun input => ⟨.error error, input, []⟩
where
  /-- The failure of every call. -/
  error : QueryError := Operator.query.fault 0 (.reported reason)

end Registry

namespace Catalog

/-- The reference to the object of a name. -/
def ref? (catalog : Catalog) (name : String) : Option QueryRef :=
  (Named.lookup name catalog).map (·.ref name)

/-- The objects of a catalog, whose calls of one another are nested at most `depth` deep. -/
def registry (catalog : Catalog) : Nat → Registry
  | 0 => .failing "query objects are nested too deeply"
  | depth + 1 =>
    let queries := registry catalog depth
    let unknown := Registry.failing "no such query object"
    { matching := fun name =>
        ((Named.lookup name catalog).bind (·.matching? name queries)).getD (unknown.matching name)
      sequence := fun name =>
        ((Named.lookup name catalog).bind (·.sequence? name queries)).getD (unknown.sequence name) }

/-- How deep calls of query objects may be nested. -/
def maxDepth : Nat := 1000

/-- The objects of a catalog. -/
def queries (catalog : Catalog) : Registry :=
  catalog.registry maxDepth

end Catalog

end RecordQuery
