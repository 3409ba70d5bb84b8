/-!
# Events

What an observer can see of an evaluation besides its result: items pulled from sources, lookups of
translations, and calls of query objects. A *trace* is a list of events in the order in which they
happen.
-/

namespace RecordQuery

/-- A phase in the life of a query object. -/
inductive Phase where
  /-- An object gets ready to test candidates. -/
  | pre
  /-- An object tests a candidate. -/
  | test
  /-- An object is done with testing candidates. -/
  | post
  /-- An object takes a sequence over. -/
  | perform
  /-- The hook before a query. -/
  | setup
  /-- The hook after a query. -/
  | teardown
deriving DecidableEq, Repr

/-- The name of a phase. -/
def Phase.name : Phase → String
  | .pre => "pre"
  | .test => "test"
  | .post => "post"
  | .perform => "perform"
  | .setup => "setup"
  | .teardown => "teardown"

/-- Something that can be seen of an evaluation. -/
inductive Event where
  /-- An item is pulled from a source. -/
  | pulled
  /-- A text is looked up under a locale and a key. -/
  | lookup (locale key : String)
  /-- The named query object goes through a phase. -/
  | reached (query : String) (phase : Phase)
deriving DecidableEq, Repr

/-- The events of an evaluation, in order. -/
abbrev Trace := List Event

namespace Event

/-- The entry that an event makes in a journal. Pulls are counted and make none. -/
def entry? : Event → Option String
  | .pulled => none
  | .lookup locale key => some ("lookup:" ++ locale ++ ":" ++ key)
  | .reached query phase => some (query ++ ":" ++ phase.name)

end Event

namespace Trace

/-- The journal of a trace. -/
def journal (trace : Trace) : List String :=
  trace.filterMap Event.entry?

/-- How many items were pulled. -/
def pulls (trace : Trace) : Nat :=
  trace.count .pulled

end Trace

end RecordQuery
