import RecordQuery.Eval.Meaning

/-!
# Outcomes of evaluations, step by step

Equations for running composed evaluations from a state. `Outcome.after` puts events before those of
an outcome, so that a sequence of two evaluations is described without taking outcomes apart:

* `Eval.run_bind_ok`: what follows a success runs from the state of that success, after its events;
  `Eval.run_bind_bind_ok` is the same for two in a row;
* `Eval.run_bind_error`: nothing follows a failure.
-/

namespace RecordQuery

variable {α β : Type}

/-! ## Events before an outcome -/

namespace Outcome

/-- An outcome that comes after events. -/
def after (trace : Trace) (o : Outcome α) : Outcome α :=
  ⟨o.value, o.state, trace ++ o.trace⟩

/-- Events before an outcome do not change its value. -/
@[simp] theorem after_value (trace : Trace) (o : Outcome α) : (o.after trace).value = o.value := rfl

/-- Nor do they change its state. -/
@[simp] theorem after_state (trace : Trace) (o : Outcome α) : (o.after trace).state = o.state := rfl

/-- They stand before its own. -/
@[simp] theorem after_trace (trace : Trace) (o : Outcome α) :
    (o.after trace).trace = trace ++ o.trace := rfl

/-- No events before an outcome change nothing. -/
@[simp] theorem after_nil (o : Outcome α) : o.after [] = o := rfl

end Outcome

/-! ## Actions -/

namespace Action

/-- Two actions in a row, as the outcome of the second behind the events of the first. -/
theorem bind_eq_after (first : Action α) (next : α → Action β) (state : State) :
    (first >>= next) state =
      (next (first state).value (first state).state).after (first state).trace :=
  rfl

/-- What comes to something else, events aside, goes on alike. -/
theorem bind_of_after {first first' : Action α} {state state' : State} {trace : Trace}
    (h : first state = (first' state').after trace) (next : α → Action β) :
    (first >>= next) state = ((first' >>= next) state').after trace := by
  rw [bind_eq_after, bind_eq_after, h]
  simp [Outcome.after]

/-- What follows events that are left. -/
theorem leave_bind_apply (trace : Trace) (next : Unit → Action α) (state : State) :
    (leave trace >>= next) state = (next () state).after trace :=
  rfl

end Action

/-! ## Evaluations -/

namespace Eval

/-- A value that is at hand is the result. -/
@[simp] theorem run_pure (a : α) (state : State) : run (pure a) state = ⟨.ok a, state, []⟩ := rfl

/-- A failure is the result, and nothing else happens. -/
@[simp] theorem run_throw (e : QueryError) (state : State) :
    run (throw e : Eval α) state = ⟨.error e, state, []⟩ := rfl

/-- A report leaves its events and has its result. -/
@[simp] theorem run_report (trace : Trace) (result : Except QueryError α) (state : State) :
    run (report trace result) state = ⟨result, state, trace⟩ := rfl

/-- Two evaluations that run alike from every state are the same. -/
theorem ext_run {x y : Eval α} (h : ∀ state, x.run state = y.run state) : x = y :=
  funext h

/-- What follows a success runs from the state of the success, after its events. -/
theorem run_bind_ok {x : Eval α} {f : α → Eval β} {state : State} {a : α}
    (h : (x.run state).value = .ok a) :
    (x >>= f).run state = ((f a).run (x.run state).state).after (x.run state).trace := by
  show (ExceptT.bindCont f (x.run state).value (x.run state).state).after (x.run state).trace = _
  rw [h]
  rfl

/-- What follows two successes runs from the state of the second, after the events of both. -/
theorem run_bind_bind_ok {γ : Type} {x : Eval α} {y : Eval β} {f : α → β → Eval γ} {a : α} {b : β}
    {state middle final : State} {trace trace' : Trace}
    (hx : x.run state = ⟨.ok a, middle, trace⟩) (hy : y.run middle = ⟨.ok b, final, trace'⟩) :
    (x >>= fun a => y >>= f a).run state = ((f a b).run final).after (trace ++ trace') := by
  have hfirst : (x.run state).value = .ok a := congrArg Outcome.value hx
  have hsecond : (y.run middle).value = .ok b := congrArg Outcome.value hy
  rw [run_bind_ok hfirst, hx, run_bind_ok hsecond, hy]
  simp only [Outcome.after, List.append_assoc]

/-- Nothing follows a failure. -/
theorem run_bind_error {x : Eval α} {f : α → Eval β} {state : State} {e : QueryError}
    (h : (x.run state).value = .error e) :
    (x >>= f).run state = ⟨.error e, (x.run state).state, (x.run state).trace⟩ := by
  show (ExceptT.bindCont f (x.run state).value (x.run state).state).after (x.run state).trace = _
  rw [h]
  show (⟨_, _, (x.run state).trace ++ []⟩ : Outcome _) = _
  rw [List.append_nil]
  rfl

/-- A function of the result changes neither the state nor the events. -/
theorem run_map (f : α → β) (x : Eval α) (state : State) :
    (f <$> x).run state =
      ⟨(x.run state).value.map f, (x.run state).state, (x.run state).trace⟩ := by
  rw [map_eq_pure_bind]
  rcases h : (x.run state).value with e | a
  · rw [run_bind_error h]
    rfl
  · rw [run_bind_ok h, run_pure, Outcome.after, List.append_nil]
    rfl

/-- An action, run as an evaluation, does not fail. -/
@[simp] theorem run_ofAction (action : Action α) (state : State) :
    (ofAction action).run state =
      ⟨.ok (action state).value, (action state).state, (action state).trace⟩ := by
  show (⟨_, _, (action state).trace ++ []⟩ : Outcome _) = _
  rw [List.append_nil]
  rfl

/-- An action that cannot fail, and what follows it. -/
theorem run_ofAction_bind (action : Action α) (f : α → Eval β) (state : State) :
    (ofAction action >>= f).run state =
      ((f (action state).value).run (action state).state).after (action state).trace := by
  have h : ((ofAction action).run state).value = .ok (action state).value := rfl
  rw [run_bind_ok h, run_ofAction]

/-- Actions in a row, run as one evaluation, are run one after another. -/
theorem ofAction_bind (action : Action α) (next : α → Action β) :
    ofAction (action >>= next) = (ofAction action >>= fun a => ofAction (next a)) := by
  apply ext_run
  intro state
  rw [run_ofAction_bind, run_ofAction, run_ofAction]
  rfl

/-- Two evaluations that begin alike are alike if they go on alike from where the beginning ends. -/
theorem run_bind_congr {x : Eval α} {f g : α → Eval β} {state : State}
    (h : ∀ a, (x.run state).value = .ok a →
      (f a).run (x.run state).state = (g a).run (x.run state).state) :
    (x >>= f).run state = (x >>= g).run state := by
  rcases hx : (x.run state).value with e | a
  · rw [run_bind_error hx, run_bind_error hx]
  · rw [run_bind_ok hx, run_bind_ok hx, h a hx]

/-- Reading a variable looks at the bindings and at nothing else. -/
theorem run_resolve (name : String) (state : State) :
    (resolve name).run state =
      ⟨(Named.lookup name state.bindings).elim (.error (.variableUnbound name)) .ok, state,
        []⟩ := by
  unfold resolve
  rw [run_ofAction_bind]
  have hstate : (Action.state state).value = state := rfl
  rw [hstate]
  cases Named.lookup name state.bindings <;> rfl

/-- What is done if a variable has a binding, and what is done if it has none. -/
theorem run_ifBound (name : String) (x y : Eval α) (state : State) :
    (do if ← isBound name then x else y : Eval α).run state =
      if (Named.lookup name state.bindings).isSome then x.run state else y.run state := by
  have hbound : ((isBound name).run state).value =
      .ok (Named.lookup name state.bindings).isSome := rfl
  rw [run_bind_ok hbound]
  split <;> rfl

/-- Under a binding, an evaluation runs with that binding, which is released at the end. -/
theorem run_withBinding (name : String) (value : Value) (body : Eval α) (state : State) :
    (withBinding name value body).run state =
      ⟨(body.run ⟨(name, value) :: state.bindings, state.workingSet⟩).value,
        ⟨(body.run ⟨(name, value) :: state.bindings, state.workingSet⟩).state.bindings.tail,
          (body.run ⟨(name, value) :: state.bindings, state.workingSet⟩).state.workingSet⟩,
        (body.run ⟨(name, value) :: state.bindings, state.workingSet⟩).trace⟩ :=
  rfl

end Eval

/-- A literal runs to its value. -/
theorem Expr.run_literal (ctx : Context) (value : Value) (state : State) :
    ((literal value).value ctx).run state = ⟨.ok value, state, []⟩ := by
  rw [Expr.value, meaning]
  rfl

/-- A limit that is not negative is a number of items. -/
theorem Operator.limitCount_pure {count : Int64} (h : 0 ≤ count.toInt) :
    limitCount (pure (.integer count)) = pure count.toInt.toNat := by
  show (if 0 ≤ count.toInt then pure count.toInt.toNat else throw _ : Eval Nat) = _
  rw [if_pos h]

/-! ## Taking the working set -/

namespace Cursor

variable {state : State} {tape : Tape}

/-- Without a working set the sequence is empty, and nothing is taken. -/
theorem run_takeEverything_of_unset (h : state.workingSet = .unset) :
    takeEverything.run state = ⟨.ok (values []), state, []⟩ := by
  unfold takeEverything
  simp only [Eval.run, ExceptT.run, ExceptT.mk, h]

/-- A working set that is available is taken. -/
theorem run_takeEverything_of_available (h : state.workingSet = .available tape) :
    takeEverything.run state =
      ⟨.ok workingSet, { state with workingSet := .taken tape }, []⟩ := by
  unfold takeEverything
  simp only [Eval.run, ExceptT.run, ExceptT.mk, h]

/-- A working set that was taken cannot be taken again. -/
theorem run_takeEverything_of_taken (h : state.workingSet = .taken tape) :
    takeEverything.run state =
      ⟨.error (.evaluation Expr.everythingName 0 .consumed), state, []⟩ := by
  unfold takeEverything
  simp only [Eval.run, ExceptT.run, ExceptT.mk, h]

end Cursor

end RecordQuery
