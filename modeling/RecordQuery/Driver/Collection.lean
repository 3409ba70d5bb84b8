import RecordQuery.Driver.Prepared

/-!
# Collection drivers

A collection driver evaluates a query over a sequence, the sequence being its working set, and
collects the result.
-/

namespace RecordQuery

/-- A query over a sequence. -/
structure CollectionDriver extends Prepared

namespace CollectionDriver

/-- The result of the query over a sequence. Nothing is pulled and nothing announced if the
parameters do not suffice. -/
def perform (driver : CollectionDriver) (queries : Registry) (input : Tape) :
    Reading (List Value) :=
  match driver.check with
  | .error e => ⟨.error e, input, []⟩
  | .ok () =>
    let o := (driver.body.source (driver.context queries)).collect.run ⟨[], .available input⟩
    (⟨o.value, o.state.remaining, o.trace⟩ : Reading _).bracket driver.setup driver.teardown

/-- The driver as a query object. -/
def toQuery (driver : CollectionDriver) (queries : Registry) : SequenceQuery :=
  .collecting (driver.perform queries)

end CollectionDriver

end RecordQuery
