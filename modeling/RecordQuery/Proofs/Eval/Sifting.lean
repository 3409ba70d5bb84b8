import RecordQuery.Proofs.Eval.Descent
import RecordQuery.Proofs.Query.Candidates

/-!
# Reading the working set through a test

A reader may decide about every value before it gathers it. If the decision leaves a working set
that was taken where it is, it comes to a verdict about the value alone (`Eval.Decides`), whatever
is left of the working set. The working set is opened by the variable `everything`, unless that name
has a binding (`Expr.run_start_everything`).

**Main statement** (`Source.run_readFrom_gathering`): then reading what is left of the working set
is testing its items one by one, and gathering those that pass.
-/

namespace RecordQuery

/-! ## Decisions -/

/-- In a state whose working set was taken, an evaluation comes to the verdict of a test about a
value, and leaves the state as it was. -/
def Eval.Decides (decide : Value → Eval Bool) (bindings : List (String × Value))
    (test : Value → Verdict) : Prop :=
  ∀ value tape, (decide value).run ⟨bindings, .taken tape⟩ =
    ⟨(test value).result, ⟨bindings, .taken tape⟩, (test value).trace⟩

/-! ## Pulls on the working set -/

/-- A pull on a working set that was taken is a step on its tape. -/
theorem Cursor.read_workingSet_step (trace : Trace) (item : Item) (rest : Tape)
    (bindings : List (String × Value)) :
    Cursor.read .workingSet ⟨bindings, .taken (.step trace item rest)⟩ =
      ⟨(some item, .workingSet), ⟨bindings, .taken rest⟩, trace⟩ :=
  congrArg (Outcome.mk _ _) (List.append_nil trace)

/-- A pull that finds the end leaves the events of finding it. -/
theorem Cursor.read_workingSet_closing (trace : Trace) (bindings : List (String × Value)) :
    Cursor.read .workingSet ⟨bindings, .taken (.closing trace)⟩ =
      ⟨(none, .workingSet), ⟨bindings, .taken .spent⟩, trace⟩ :=
  congrArg (Outcome.mk _ _) (List.append_nil trace)

/-- A pull behind the end leaves none. -/
theorem Cursor.read_workingSet_spent (bindings : List (String × Value)) :
    Cursor.read .workingSet ⟨bindings, .taken .spent⟩ =
      ⟨(none, .workingSet), ⟨bindings, .taken .spent⟩, []⟩ :=
  rfl

/-! ## The variable `everything` -/

namespace Expr

variable {ctx : Context} {state : State}

/-- The variable is pulled on like values or the working set, whichever it opened. -/
theorem advance_everything (ctx : Context) : (everything.source ctx).advance = Cursor.read := by
  rw [Expr.source, everything, meaning, Meaning.ofVar, if_pos rfl]

/-- The variable opens its binding if it has one, and the working set otherwise. -/
theorem run_start_everything (ctx : Context) (state : State) :
    (everything.source ctx).start.run state =
      if (Named.lookup everythingName state.bindings).isSome then
        (Source.ofValue (Eval.resolve everythingName)).start.run state
      else Cursor.takeEverything.run state := by
  rw [Expr.source, everything, meaning, Meaning.ofVar, if_pos rfl]
  exact Eval.run_ifBound everythingName _ _ state

/-- Without a binding of its name, `everything` opens the working set. -/
theorem run_start_everything_of_unbound
    (h : Named.lookup everythingName state.bindings = none) :
    (everything.source ctx).start.run state = Cursor.takeEverything.run state := by
  rw [run_start_everything, h]
  rfl

/-- Where the working set is there to be taken, it is taken then. -/
theorem run_start_everything_of_available {bindings : List (String × Value)}
    (h : Named.lookup everythingName bindings = none) (tape : Tape) :
    (everything.source ctx).start.run ⟨bindings, .available tape⟩ =
      ⟨.ok .workingSet, ⟨bindings, .taken tape⟩, []⟩ :=
  run_start_everything_of_unbound h

/-- A variable that has a binding opens the items of its value, also `everything`. -/
theorem run_start_everything_of_bound {value : Value}
    (h : Named.lookup everythingName state.bindings = some value) :
    (everything.source ctx).start.run state = ⟨.ok (.values value.items), state, []⟩ := by
  have hresolve : (Eval.resolve everythingName).run state = ⟨.ok value, state, []⟩ := by
    rw [Eval.run_resolve, h]
    rfl
  rw [run_start_everything, h, Option.isSome_some, if_pos rfl]
  show (Eval.resolve everythingName >>= fun value => pure (Cursor.values value.items)).run state = _
  rw [Eval.run_bind_ok (by rw [hresolve]), hresolve]
  rfl

end Expr

/-! ## Reading -/

namespace Source

variable {β γ : Type}

/-- What a reader does with a value that it decides about first. -/
def gathering (decide : Value → Eval Bool) (step : β → Value → β) (gathered : β) (value : Value) :
    Eval (Progress β γ) := do
  return .more (if ← decide value then step gathered value else gathered)

variable {decide : Value → Eval Bool} {bindings : List (String × Value)} {test : Value → Verdict}

/-- What the reader of a gathering does with a value: it decides, and takes the step or does not. -/
theorem run_gathering (decide : Value → Eval Bool) (step : β → Value → β) (gathered : β)
    (value : Value) (state : State) :
    (gathering (γ := γ) decide step gathered value).run state =
      ⟨((decide value).run state).value.map fun passes =>
          .more (if passes then step gathered value else gathered),
        ((decide value).run state).state, ((decide value).run state).trace⟩ := by
  rw [gathering, ← map_eq_pure_bind, Eval.run_map]

/-- A gathering leads to later states, if its decisions do. -/
theorem advances_gathering (h : ∀ value, (decide value).Advances) (step : β → Value → β)
    (gathered : β) (value : Value) :
    (gathering (γ := γ) decide step gathered value).Advances := by
  intro state
  rw [run_gathering]
  exact h value state

/-- **Reading the working set and deciding about its values is testing its items one by one.** By
induction over what is left of the working set. -/
theorem run_readFrom_gathering {source : Source} (hsource : source.advance = Cursor.read)
    (hadvances : ∀ value, (decide value).Advances) (h : Eval.Decides decide bindings test)
    (step : β → Value → β) (finish : β → γ) (tape : Tape) (gathered : β) :
    (source.readFrom (gathering decide step) finish .workingSet gathered).run
        ⟨bindings, .taken tape⟩ =
      ⟨(tape.siftEach test).result.map fun values => finish (values.foldl step gathered),
        ⟨bindings, .taken (tape.siftEach test).rest⟩, (tape.siftEach test).trace⟩ := by
  have hdescends : source.Descends := descends_of_advance_eq_read hsource
  have hvisits := advances_gathering (γ := γ) hadvances step
  induction tape generalizing gathered with
  | step trace item rest ih =>
      rw [hdescends.readFrom_eq hvisits, Eval.run_ofAction_bind, hsource,
        Cursor.read_workingSet_step]
      rcases item with e | value
      · rw [Tape.siftEach_step_error]
        simp [Outcome.after, Except.map]
      · have hvisit := run_gathering (γ := γ) decide step gathered value ⟨bindings, .taken rest⟩
        rw [h value rest] at hvisit
        dsimp only at hvisit ⊢
        rcases hresult : (test value).result with e | passes <;> rw [hresult] at hvisit
        · rw [Tape.siftEach_step_refused hresult, Eval.run_bind_error (by rw [hvisit]; rfl), hvisit]
          rfl
        · rw [Tape.siftEach_step_ok hresult, Eval.run_bind_ok (by rw [hvisit]; rfl), hvisit]
          dsimp only
          rw [ih]
          rcases (rest.siftEach test).result with e | values <;> cases passes <;>
            simp [Outcome.after, Functor.map, Except.map]
  | closing trace =>
      rw [hdescends.readFrom_eq hvisits, Eval.run_ofAction_bind, hsource,
        Cursor.read_workingSet_closing]
      simp [Outcome.after, Tape.siftEach, Tape.sift, Except.map]
  | spent =>
      rw [hdescends.readFrom_eq hvisits, Eval.run_ofAction_bind, hsource,
        Cursor.read_workingSet_spent]
      simp [Outcome.after, Tape.siftEach, Tape.sift, Except.map]

end Source

end RecordQuery
