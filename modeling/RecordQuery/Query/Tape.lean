import RecordQuery.Query.Error
import RecordQuery.Query.Event

/-!
# Tapes

A sequence is lazy and single-pass: its next item is computed when it is pulled, and computing it
can leave events. A `Tape` is all that can be seen of one sequence by pulling on it, pull by pull.
Whoever reads a tape decides how far; events of pulls that are never made never happen.
-/

namespace RecordQuery

/-- An item of a sequence: a value, or the failure to compute one. A sequence may go on after a
failure. -/
abbrev Item := Except QueryError Value

/-- A single-pass sequence, as its reader sees it. -/
inductive Tape where
  /-- The next pull leaves a trace and brings an item. -/
  | step (trace : Trace) (item : Item) (rest : Tape)
  /-- The next pull leaves a trace and finds the end. -/
  | closing (trace : Trace)
  /-- The end was found. Further pulls find it again and leave no trace. -/
  | spent
deriving Inhabited

namespace Tape

/-- The tape of a source: every pull of an item is seen, and finding the end is not. -/
def ofItems : List Item → Tape
  | [] => .spent
  | item :: rest => .step [.pulled] item (ofItems rest)

/-- The tape of values that are at hand. -/
def ofValues (values : List Value) : Tape :=
  values.foldr (fun value rest => .step [] (.ok value) rest) .spent

/-- How many pulls are left before pulls leave no trace. -/
def length : Tape → Nat
  | .step _ _ rest => rest.length + 1
  | .closing _ => 1
  | .spent => 0

/-- How many items are left. -/
def itemCount : Tape → Nat
  | .step _ _ rest => rest.itemCount + 1
  | .closing _ | .spent => 0

end Tape

/-- What becomes of a tape that is read through. -/
structure Reading (α : Type) where
  /-- The result, or the failure that ended the reading. -/
  result : Except QueryError α
  /-- What was not read. -/
  rest : Tape
  /-- The events of the reading. -/
  trace : Trace

namespace Tape

/-- Reads values until the end or the first failure, and keeps those that pass a test. The test has
a state of its own and may fail, which ends the reading too. -/
def sift {σ : Type} (test : σ → Value → Except QueryError Bool × σ × Trace) :
    σ → Tape → Reading (List Value)
  | _, .spent => ⟨.ok [], .spent, []⟩
  | _, .closing trace => ⟨.ok [], .spent, trace⟩
  | _, .step trace (.error e) rest => ⟨.error e, rest, trace⟩
  | state, .step trace (.ok value) rest =>
    match test state value with
    | (.error e, _, tested) => ⟨.error e, rest, trace ++ tested⟩
    | (.ok passes, state, tested) =>
      let later := sift test state rest
      ⟨(if passes then (value :: ·) <$> later.result else later.result), later.rest,
        trace ++ tested ++ later.trace⟩

end Tape

end RecordQuery
