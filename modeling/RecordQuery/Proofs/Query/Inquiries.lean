import RecordQuery.Query.Object

/-!
# What streaming query objects can do

An inquiry is a function of the items that a query object is given, so that what the object can do
is told without a sequence that it reads: `Inquiry.Answers` are the answers that it can come to, and
`Inquiry.Leaves` are the traces that it can leave at one step. `SequenceQuery.Leaves` collects the
latter over all that a streaming query object does.
-/

namespace RecordQuery

variable {α : Type}

/-- An inquiry can come to an answer from the items that it was given: the object answers as soon
as it has them, or when it is told of the end behind them. -/
inductive Inquiry.Answers (inquiry : Inquiry α) (given : List Item) (answer : α) : Prop
  /-- The object answers as soon as it has the items. -/
  | next {trace : Trace} (h : inquiry.next given = .answer trace answer)
  /-- The object answers when it is told of the end. -/
  | last (h : (inquiry.last given).2 = answer)

/-- An inquiry can leave a trace at one of its steps. -/
inductive Inquiry.Leaves (inquiry : Inquiry α) (trace : Trace) : Prop
  /-- The object asks for an item. -/
  | ask {given : List Item} (h : inquiry.next given = .ask trace)
  /-- The object answers. -/
  | answer {given : List Item} {answer : α} (h : inquiry.next given = .answer trace answer)
  /-- The object is told of the end. -/
  | last {given : List Item} (h : (inquiry.last given).1 = trace)

/-- A query object leaves a trace at a step before it opens, or at a step towards one of its items.
Of a collecting query object this says nothing: it leaves one trace, for all that it does. -/
inductive SequenceQuery.Leaves (trace : Trace) : SequenceQuery → Prop
  /-- The trace is left before the object opens. -/
  | opening {opening : Inquiry (Except QueryError Unit)} {width : Nat}
    {pull : Exchange → Inquiry (Option Item)} (h : opening.Leaves trace) :
    Leaves trace (.streaming opening width pull)
  /-- The trace is left on the way to an item. -/
  | pull {opening : Inquiry (Except QueryError Unit)} {width : Nat}
    {pull : Exchange → Inquiry (Option Item)} {exchange : Exchange}
    (h : (pull exchange).Leaves trace) : Leaves trace (.streaming opening width pull)

/-- A query that passes items on leaves its events when it opens, and none later. -/
theorem SequenceQuery.Leaves.of_passing {opening trace : Trace} {pass : Item → Option Item}
    (h : (passing opening pass).Leaves trace) : trace = opening ∨ trace = [] := by
  cases h with
  | opening h =>
      refine .inl ?_
      cases h with
      | ask h => cases h
      | answer h => cases h; rfl
      | last h => exact h.symm
  | pull h =>
      refine .inr ?_
      cases h with
      | @ask given h =>
          dsimp only at h
          cases hpassed : given.head?.bind pass <;> rw [hpassed] at h <;> cases h
          rfl
      | @answer given _ h =>
          dsimp only at h
          cases hpassed : given.head?.bind pass <;> rw [hpassed] at h <;> cases h
          rfl
      | last h => exact h.symm

end RecordQuery
