import RecordQuery.Eval.Context
import RecordQuery.Value.Fingerprint

/-!
# Sources of items

An expression in the position of a sequence is a `Source`: it is opened once, which gives a
`Cursor`, and the cursor is advanced item by item. A cursor is plain data that says how far the
reading is; what advancing means is the source's affair, because lambdas read variables from the
state at the time of the pull.

Reading loops are bounded by `Cursor.bound`, the number of items that can still come.
-/

namespace RecordQuery

/-! ## Cursors -/

/-- How far a sequence is read. -/
inductive Cursor where
  /-- These values are left. -/
  | values (rest : List Value)
  /-- What the state holds of the working set is left. -/
  | workingSet
  /-- An item is computed from the items of another sequence. -/
  | derived (inner : Cursor)
  /-- As `derived`, where these values were passed on before. -/
  | unseen (seen : Value.Seen) (inner : Cursor)
  /-- As `derived`, where at most so many items are left. -/
  | atMost (left : Nat) (inner : Cursor)
  /-- As `derived`, where the named query object makes the items. It hands on so many at most for
  each that it is given, and this went on so far. -/
  | through (query : String) (width : Nat) (exchange : Exchange) (inner : Cursor)

namespace Cursor

/-- An upper bound of the number of items that are left. -/
def bound (state : State) : Cursor → Nat
  | values rest => rest.length
  | workingSet => state.remaining.itemCount
  | derived inner | unseen _ inner | atMost _ inner => bound state inner
  | through _ width exchange inner =>
    width * (exchange.total (bound state inner) + 1) - exchange.handed

/-- Advances a cursor that reads values or the working set. -/
def read : Cursor → Action (Option Item × Cursor)
  | values [] => pure (none, values [])
  | values (value :: rest) => pure (some (.ok value), values rest)
  | workingSet => do return (← Action.pull, workingSet)
  | cursor => pure (none, cursor)

/-- Takes the working set, which can be done once. Without a working set the sequence is empty. -/
def takeEverything : Eval Cursor :=
  ExceptT.mk fun state =>
    match state.workingSet with
    | .unset => ⟨.ok (values []), state, []⟩
    | .available tape => ⟨.ok workingSet, { state with workingSet := .taken tape }, []⟩
    | .taken _ => ⟨.error (.evaluation Expr.everythingName 0 .consumed), state, []⟩

end Cursor

/-! ## Sources -/

/-- An expression as a sequence. -/
structure Source where
  /-- Opens the sequence. -/
  start : Eval Cursor
  /-- Pulls one item from a cursor of this source; no item is the end. -/
  advance : Cursor → Action (Option Item × Cursor)

namespace Source

/-- The items of a value. -/
def ofValue (value : Eval Value) : Source where
  start := do return .values (← value).items
  advance := Cursor.read

/-- The working set. -/
def everything : Source where
  start := Cursor.takeEverything
  advance := Cursor.read

/-! ## Looking for an item -/

/-- Pulls until `accept` makes an item of one that is pulled, `fuel` times at most. -/
def seekWithin (source : Source) (accept : Item → Action (Option Item)) :
    Nat → Cursor → Action (Option Item × Cursor)
  | 0, cursor => pure (none, cursor)
  | fuel + 1, cursor => do
    match ← source.advance cursor with
    | (none, cursor) => return (none, cursor)
    | (some item, cursor) =>
      match ← accept item with
      | some item => return (some item, cursor)
      | none => seekWithin source accept fuel cursor

/-- Pulls until `accept` makes an item of one that is pulled, or to the end. -/
def seek (source : Source) (accept : Item → Action (Option Item)) (cursor : Cursor) :
    Action (Option Item × Cursor) :=
  fun state => source.seekWithin accept (cursor.bound state + 1) cursor state

/-! ## Giving a query object what it asks for -/

/-- Tells a query object of the end, and has its answer. -/
def tellEnd {α : Type} (inquiry : Inquiry α) (heard : List Item) (exchange : Exchange)
    (cursor : Cursor) : Action (α × Exchange × Cursor) := do
  Action.leave (inquiry.last heard).1
  return ((inquiry.last heard).2, exchange, cursor)

/-- Gives a query object the items that it asks for until it answers, with `fuel` pulls at most.
When these are made, it is told of the end. -/
def consultWithin {α : Type} (source : Source) (inquiry : Inquiry α) :
    Nat → List Item → Exchange → Cursor → Action (α × Exchange × Cursor)
  | 0, heard, exchange, cursor => tellEnd inquiry heard exchange cursor
  | fuel + 1, heard, exchange, cursor =>
    match inquiry.next heard with
    | .answer trace answer => do
      Action.leave trace
      return (answer, exchange, cursor)
    | .ask trace => do
      Action.leave trace
      match ← source.advance cursor with
      | (none, cursor) => tellEnd inquiry heard exchange.close cursor
      | (some item, cursor) =>
        consultWithin source inquiry fuel (item :: heard) (exchange.receive item) cursor

/-- Gives a query object the items that it asks for until it answers. Once it was told of the end,
no pull is made for it. -/
def consult {α : Type} (source : Source) (inquiry : Inquiry α) (exchange : Exchange)
    (cursor : Cursor) : Action (α × Exchange × Cursor) :=
  fun state =>
    source.consultWithin inquiry (if exchange.ended then 0 else cursor.bound state + 1) [] exchange
      cursor state

/-! ## Reading to the end -/

/-- What a reader makes of a value: it goes on, or it has seen enough. -/
inductive Progress (β γ : Type) where
  /-- Goes on with what it gathered. -/
  | more (gathered : β)
  /-- Has its result and pulls nothing more. -/
  | done (result : γ)

variable {β γ : Type}

/-- Reads values, `fuel` pulls at most. The first failing item ends the reading and is its
failure. -/
def readWithin (source : Source) (visit : β → Value → Eval (Progress β γ)) (finish : β → γ) :
    Nat → Cursor → β → Eval γ
  | 0, _, gathered => pure (finish gathered)
  | fuel + 1, cursor, gathered => do
    match ← Eval.ofAction (source.advance cursor) with
    | (none, _) => return finish gathered
    | (some (.error e), _) => throw e
    | (some (.ok value), cursor) =>
      match ← visit gathered value with
      | .more gathered => readWithin source visit finish fuel cursor gathered
      | .done result => return result

/-- Reads values from a cursor until the reader has seen enough, to the end, or to the first
failure. -/
def readFrom (source : Source) (visit : β → Value → Eval (Progress β γ)) (finish : β → γ)
    (cursor : Cursor) (gathered : β) : Eval γ :=
  ExceptT.mk fun state =>
    (source.readWithin visit finish (cursor.bound state + 1) cursor gathered).run state

/-- Opens the sequence and reads it. -/
def read (source : Source) (visit : β → Value → Eval (Progress β γ)) (finish : β → γ)
    (gathered : β) : Eval γ := do
  source.readFrom visit finish (← source.start) gathered

/-- All values from a cursor on. -/
def drain (source : Source) (cursor : Cursor) : Eval (List Value) :=
  source.readFrom (fun gathered value => pure (.more (value :: gathered))) List.reverse cursor []

/-- All values. -/
def collect (source : Source) : Eval (List Value) := do
  source.drain (← source.start)

/-! ## Handing a sequence over -/

/-- The outcomes of pulling to the end, `fuel` pulls at most. -/
def pullsWithin (source : Source) : Nat → Cursor → State → List (Outcome (Option Item))
  | 0, _, _ => []
  | fuel + 1, cursor, state =>
    let o := source.advance cursor state
    ⟨o.value.1, o.state, o.trace⟩ ::
      (if o.value.1.isSome then source.pullsWithin fuel o.value.2 o.state else [])

/-- The tape of several pulls. -/
def tapeOf : List (Outcome (Option Item)) → Tape
  | [] => .spent
  | ⟨some item, _, trace⟩ :: rest => .step trace item (tapeOf rest)
  | ⟨none, _, trace⟩ :: _ => .closing trace

/-- Hands what is left of a sequence to a reader outside. The reader pulls as far as it wants; the
state afterwards is that of its last pull. -/
def handOver {α : Type} (source : Source) (reader : Tape → Reading α) (cursor : Cursor) : Eval α :=
  ExceptT.mk fun state =>
    let pulls := source.pullsWithin (cursor.bound state + 1) cursor state
    let tape := tapeOf pulls
    let reading := reader tape
    let made := pulls.take (tape.length - reading.rest.length)
    ⟨reading.result, (made.getLast?.map Outcome.state).getD state, reading.trace⟩

end Source

end RecordQuery
