import RecordQuery.Query.Tape

/-!
# The state of an evaluation

Evaluation reads and changes a `State`: the live bindings of variables and the working set, which
can be taken once. An `Action` is a computation on states that leaves a trace; an `Eval` is an
action that may fail. A failure keeps the state and the trace that led to it.
-/

namespace RecordQuery

/-! ## States -/

/-- The working set, the sequence that `everything` stands for. -/
inductive WorkingSet where
  /-- There is none; it reads as the empty sequence. -/
  | unset
  /-- It was not taken yet. -/
  | available (tape : Tape)
  /-- It was taken, and this is what is left of it. -/
  | taken (tape : Tape)
deriving Inhabited

/-- The state of an evaluation. -/
structure State where
  /-- The live bindings of variables, the innermost first. -/
  bindings : List (String × Value)
  /-- The working set. -/
  workingSet : WorkingSet
deriving Inhabited

namespace State

/-- The state without bindings and without a working set. -/
def initial : State := ⟨[], .unset⟩

/-- What is left to read of the working set, taken or not. -/
def remaining (state : State) : Tape :=
  match state.workingSet with
  | .unset => .spent
  | .available tape | .taken tape => tape

/-- The number of live bindings. -/
def depth (state : State) : Nat :=
  state.bindings.length

end State

/-! ## Actions -/

/-- Where an action ends. -/
structure Outcome (α : Type) where
  /-- The result. -/
  value : α
  /-- The state afterwards. -/
  state : State
  /-- The events on the way. -/
  trace : Trace

/-- A computation that may change the state and leave events. -/
def Action (α : Type) := State → Outcome α

namespace Action

variable {α β : Type}

/-- The action that does nothing. -/
protected def pure (a : α) : Action α :=
  fun state => ⟨a, state, []⟩

/-- One action after another. -/
protected def bind (first : Action α) (next : α → Action β) : Action β :=
  fun state =>
    let o := first state
    let o' := next o.value o.state
    ⟨o'.value, o'.state, o.trace ++ o'.trace⟩

instance : Monad Action where
  pure := Action.pure
  bind := Action.bind

/-- A value that is at hand leaves the state alone, and no trace. -/
theorem pure_apply (a : α) (state : State) : (pure a : Action α) state = ⟨a, state, []⟩ := rfl

/-- Two actions in a row: the second starts in the state that the first leaves, and the traces are
joined. -/
theorem bind_apply (first : Action α) (next : α → Action β) (state : State) :
    (first >>= next) state =
      ⟨(next (first state).value (first state).state).value,
        (next (first state).value (first state).state).state,
        (first state).trace ++ (next (first state).value (first state).state).trace⟩ :=
  rfl

instance : LawfulMonad Action := by
  refine LawfulMonad.mk' Action (fun x => ?_) (fun a f => rfl) (fun x f g => ?_)
  · funext state
    show (⟨(x state).value, (x state).state, (x state).trace ++ []⟩ : Outcome _) = x state
    simp
  · funext state
    simp [bind_apply, List.append_assoc]

/-- The current state. -/
def state : Action State :=
  fun s => ⟨s, s, []⟩

/-- Leaves events. -/
def leave (trace : Trace) : Action Unit :=
  fun s => ⟨(), s, trace⟩

end Action

/-- An action that may fail. -/
abbrev Eval := ExceptT QueryError Action

namespace Eval

variable {α : Type}

/-- The action that always succeeds with the outcome of an action. -/
def ofAction (action : Action α) : Eval α :=
  ExceptT.lift action

/-- Leaves events and goes on with a result or fails with it. -/
def report (trace : Trace) (result : Except QueryError α) : Eval α :=
  ExceptT.mk fun s => ⟨result, s, trace⟩

/-- Runs from a state. -/
def run (eval : Eval α) (state : State) : Outcome (Except QueryError α) :=
  ExceptT.run eval state

end Eval

end RecordQuery
