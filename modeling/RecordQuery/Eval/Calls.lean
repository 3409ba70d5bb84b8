import RecordQuery.Eval.Operators

/-!
# Calls of query objects

The operator `query` calls the query object that its first operand evaluates to. An object that
tests candidates gets the value of the second operand, or the candidate at hand; an object that
takes sequences gets the items of the second operand, or the working set.
-/

namespace RecordQuery.Operator

/-- The query object that a value has to be. -/
def queryRef (object : Eval Value) : Eval QueryRef := do
  match ← object with
  | .query ref => return ref
  | other => throw (.notAQuery other.typeName)

/-- Tests the target, or the candidate at hand, with a query object. -/
def callMatching (ctx : Context) (name : String) (target : Option Meaning) : Eval Value := do
  let candidate ← match target with
    | some target => target.value
    | none => Eval.resolve Expr.thisName
  let verdict := (ctx.queries.matching name).test candidate
  Eval.report verdict.trace (verdict.result.map Value.boolean)

/-- The sequence that a query object is given. -/
def callInput (target : Option Meaning) : Source :=
  match target with
  | some target => target.source
  | none => .everything

/-- What a query object makes of a sequence that is open. A collecting one reads it now and leaves a
list; a streaming one reads what it wants before it opens, and more when its items are pulled. -/
def performOn (ctx : Context) (name : String) (target : Option Meaning) (input : Cursor) :
    Eval Cursor :=
  match ctx.queries.sequence name with
  | .collecting perform => return .values (← (callInput target).handOver perform input)
  | .streaming opening width _ => do
    let (opened, exchange, input) ←
      Eval.ofAction ((callInput target).consult opening .initial input)
    Eval.report [] opened
    return .through name width exchange input

/-- Gives a query object its sequence. -/
def callSequence (ctx : Context) (name : String) (target : Option Meaning) : Eval Cursor := do
  performOn ctx name target (← (callInput target).start)

/-- The answer of a query object as a sequence. -/
def querySource (ctx : Context) (object : Eval Value) (target : Option Meaning) : Source where
  start := do
    match ← queryRef object with
    | .matching name => return .values [← callMatching ctx name target]
    | .sequence name => callSequence ctx name target
  advance
    | .through name width exchange input =>
      match ctx.queries.sequence name with
      | .streaming _ _ pull => do
        let (item, exchange, input) ← (callInput target).consult (pull exchange) exchange input
        let (item, exchange) := exchange.handOn width item
        return (item, .through name width exchange input)
      | .collecting _ => pure (none, .through name width exchange input)
    | cursor => cursor.read

/-- The answer of a query object as a value: a truth value, or the list of its items. -/
def queryValue (ctx : Context) (object : Eval Value) (target : Option Meaning) : Eval Value := do
  match ← queryRef object with
  | .matching name => callMatching ctx name target
  | .sequence name =>
    let cursor ← callSequence ctx name target
    return .list (← (querySource ctx object target).drain cursor)

end RecordQuery.Operator
