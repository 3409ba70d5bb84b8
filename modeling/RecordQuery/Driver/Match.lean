import RecordQuery.Driver.Prepared

/-!
# Match drivers

A match driver tests candidates with a predicate, the candidate being `this`. A candidate of the
wrong shape does not match, whatever the predicate says of it.

Testing one candidate (`MatchDriver.test`) takes a fresh state; performing over a sequence
(`MatchDriver.perform`) tests all candidates one after the other in one state.
-/

namespace RecordQuery

/-! ## Shapes -/

/-- Which candidates are considered at all. -/
inductive Shape where
  /-- Every value. -/
  | any
  /-- Records with an identifier and a version. -/
  | versioned
  /-- Records of a kind. -/
  | kind (name : String)
deriving DecidableEq, Repr, Inhabited

/-- Whether a candidate is of the shape. -/
def Shape.accepts : Shape → Value → Bool
  | .any, _ => true
  | .versioned, candidate => candidate.versioned?.isSome
  | .kind name, candidate => candidate.kind? = some name

/-! ## Drivers -/

/-- A predicate on candidates of a shape. -/
structure MatchDriver extends Prepared where
  /-- Which candidates the predicate is asked about. -/
  shape : Shape := .any

namespace MatchDriver

/-- Whether a candidate matches, as a step of an evaluation. -/
def accepts (driver : MatchDriver) (queries : Registry) (candidate : Value) : Eval Bool :=
  if driver.shape.accepts candidate then
    Eval.withBinding Expr.thisName candidate (driver.body.isTrue (driver.context queries))
  else pure false

/-- Tests one candidate. -/
def test (driver : MatchDriver) (queries : Registry) (candidate : Value) : Verdict :=
  match driver.check with
  | .error e => ⟨.error e, []⟩
  | .ok () =>
    let o := (driver.accepts queries candidate).run .initial
    ⟨o.value, o.trace⟩

/-- Tests one candidate after another in one state. -/
def testNext (driver : MatchDriver) (queries : Registry) (state : State) (candidate : Value) :
    Except QueryError Bool × State × Trace :=
  let o := (driver.accepts queries candidate).run state
  (o.value, o.state, o.trace)

/-- The matching candidates of a sequence, in order. Nothing is pulled and nothing announced if the
parameters do not suffice. -/
def perform (driver : MatchDriver) (queries : Registry) (input : Tape) : Reading (List Value) :=
  match driver.check with
  | .error e => ⟨.error e, input, []⟩
  | .ok () =>
    (input.sift (driver.testNext queries) .initial).bracket driver.setup driver.teardown

/-- The driver as a query object. -/
def toQuery (driver : MatchDriver) (queries : Registry) : MatchQuery where
  setup := driver.setup
  test := driver.test queries
  teardown := driver.teardown
  perform := driver.perform queries

end MatchDriver

end RecordQuery
