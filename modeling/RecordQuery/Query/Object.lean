import RecordQuery.Query.Tape

/-!
# Query objects

Objects outside the language that expressions can call. A `MatchQuery` tests one candidate at a
time; a `SequenceQuery` takes a whole sequence and gives another. Expressions refer to them by name,
and a `Registry` says what the names stand for.

A query that takes a sequence either reads it at once and answers with a list (`collecting`), or
answers with a sequence of its own, whose items it makes as they are pulled (`streaming`). What a
streaming one does is told by an `Inquiry` for each time that it is called on: it asks for as many
items as it wants, and then answers. It may hold items back, drop and repeat them, make others in
their place, and stop before the end.
-/

namespace RecordQuery

/-! ## Testing candidates -/

/-- The answer to a candidate. -/
structure Verdict where
  /-- Whether the candidate matches, or why this cannot be told. -/
  result : Except QueryError Bool
  /-- The events of the test. -/
  trace : Trace

/-- A query that tests one candidate at a time. -/
structure MatchQuery where
  /-- The events of getting ready. -/
  setup : Trace
  /-- Tests a candidate. -/
  test : Value → Verdict
  /-- The events of cleaning up. -/
  teardown : Trace
  /-- The candidates of a sequence that match. -/
  perform : Tape → Reading (List Value)

namespace Reading

/-- A reading between the events of getting ready and those of cleaning up, which happen whether it
fails or not. -/
def bracket {α : Type} (setup teardown : Trace) (reading : Reading α) : Reading α :=
  { reading with trace := setup ++ reading.trace ++ teardown }

/-- Where no events are left before and behind it, a reading is as it was. -/
@[simp] theorem bracket_nil {α : Type} (reading : Reading α) : reading.bracket [] [] = reading := by
  simp [bracket]

end Reading

namespace MatchQuery

/-- The query that a test makes: it gets ready, tests the candidates of a sequence in order until
one fails, and cleans up. -/
def ofTest (setup : Trace) (test : Value → Verdict) (teardown : Trace) : MatchQuery where
  setup := setup
  test := test
  teardown := teardown
  perform tape :=
    (tape.sift (fun _ value => ((test value).result, (), (test value).trace)) ()).bracket
      setup teardown

end MatchQuery

/-! ## Turning sequences into sequences -/

/-- What a query object does next on the way to an answer. -/
inductive Inquiry.Step (α : Type) where
  /-- It leaves events and asks for another item of its sequence. -/
  | ask (trace : Trace)
  /-- It leaves events and answers. -/
  | answer (trace : Trace) (answer : α)

/-- How a query object comes to an answer by asking for items of its sequence. What it does depends
on the items that it was given on the way, the latest first. -/
structure Inquiry (α : Type) where
  /-- What it does next. -/
  next : List Item → Inquiry.Step α
  /-- What it does when it is told of the end: it leaves events and answers. -/
  last : List Item → Trace × α

/-- What went on so far between a query object, the sequence that it reads, and whoever reads the
sequence that it answers with. -/
structure Exchange where
  /-- The items that the object was given, the latest first. -/
  given : List Item
  /-- Whether it was told of the end of its sequence. -/
  ended : Bool
  /-- How many items it handed on. -/
  handed : Nat

namespace Exchange

/-- Before anything went on. -/
def initial : Exchange := ⟨[], false, 0⟩

/-- The object is given an item. -/
def receive (exchange : Exchange) (item : Item) : Exchange :=
  { exchange with given := item :: exchange.given }

/-- The object is told of the end. -/
def close (exchange : Exchange) : Exchange :=
  { exchange with ended := true }

/-- How many items the object is given in all, if `left` are left of its sequence. -/
def total (exchange : Exchange) (left : Nat) : Nat :=
  exchange.given.length + if exchange.ended then 0 else left

/-- The object hands an item on, if it answers with one and may hand on that many: at most `width`
items, and as many for each item that it was given. -/
def handOn (width : Nat) (exchange : Exchange) : Option Item → Option Item × Exchange
  | none => (none, exchange)
  | some item =>
    if exchange.handed < width * (exchange.given.length + 1) then
      (some item, { exchange with handed := exchange.handed + 1 })
    else (none, exchange)

end Exchange

/-- A query that takes a whole sequence. -/
inductive SequenceQuery where
  /-- Reads as much of the sequence as it wants at once, and answers with a list. -/
  | collecting (perform : Tape → Reading (List Value))
  /-- Reads as much of the sequence as it wants before it opens, which can fail, and answers with a
  sequence. Each time that is pulled on, it reads further as far as it wants, and answers with an
  item or the end. Which items it makes may depend on all that went on before. It hands on `width`
  items at most, and as many for each that it was given, so that a finite sequence stays finite. -/
  | streaming (opening : Inquiry (Except QueryError Unit)) (width : Nat)
    (pull : Exchange → Inquiry (Option Item))

namespace SequenceQuery

/-- The query that leaves events when it opens, and passes on what a rule makes of each item. -/
def passing (opening : Trace) (pass : Item → Option Item) : SequenceQuery :=
  .streaming ⟨fun _ => .answer opening (.ok ()), fun _ => (opening, .ok ())⟩ 1 fun _ =>
    ⟨fun given => (given.head?.bind pass).elim (.ask []) fun item => .answer [] (some item),
      fun _ => ([], none)⟩

end SequenceQuery

/-! ## Names -/

/-- What the names of query objects stand for. -/
structure Registry where
  /-- The queries that test candidates. -/
  matching : String → MatchQuery
  /-- The queries that take sequences. -/
  sequence : String → SequenceQuery

end RecordQuery
