import RecordQuery.Eval.Meaning
import RecordQuery.Proofs.Eval.Outcome
import RecordQuery.Proofs.Query.Tape

/-!
# Evaluations that succeed and change nothing

`Eval.Gives` says of an evaluation, for a state, that it has a result there and leaves the state as
it was; which events it leaves is left open. Nothing is said of states from which it is not run, so
the variables that it reads need a value in that state only.

The rules follow the ways evaluations are composed, then the nodes of expressions: variables,
parameters, properties, translated properties, matching and conjunction. The last of them is that of
the reading loop, on a working set of values at hand (`Source.readWithin_workingSet`): where every
visit gives a result, the loop is a fold.
-/

namespace RecordQuery

variable {α β : Type}

/-- An evaluation has a result in a state, and leaves that state. -/
def Eval.Gives (eval : Eval α) (state : State) (result : α) : Prop :=
  ∃ trace, eval.run state = ⟨.ok result, state, trace⟩

/-! ## Composition -/

namespace Eval

variable {state : State}

/-- A value that is at hand is given. -/
theorem gives_pure (a : α) : (pure a : Eval α).Gives state a :=
  ⟨[], rfl⟩

/-- A report of a result gives it, whatever its events. -/
theorem gives_report (trace : Trace) (a : α) : (report trace (.ok a)).Gives state a :=
  ⟨trace, rfl⟩

/-- What follows an evaluation that has a result. -/
theorem Gives.bind {x : Eval α} {f : α → Eval β} {a : α} {b : β} (hx : x.Gives state a)
    (hf : (f a).Gives state b) : (x >>= f).Gives state b := by
  obtain ⟨trace, hx⟩ := hx
  obtain ⟨trace', hf⟩ := hf
  have hvalue : (x.run state).value = .ok a := by rw [hx]
  refine ⟨trace ++ trace', ?_⟩
  rw [run_bind_ok hvalue, hx, hf]
  rfl

/-- A function of a result is given where the result is. -/
theorem Gives.map {x : Eval α} {a : α} (hx : x.Gives state a) (f : α → β) :
    (f <$> x).Gives state (f a) := by
  rw [map_eq_pure_bind]
  exact hx.bind (gives_pure (f a))

/-- A binding that is made for a body and released is not seen outside. -/
theorem Gives.withBinding {body : Eval α} {a : α} {name : String} {value : Value}
    (h : body.Gives { state with bindings := (name, value) :: state.bindings } a) :
    (Eval.withBinding name value body).Gives state a := by
  obtain ⟨trace, h⟩ := h
  refine ⟨trace, ?_⟩
  show (⟨(body.run _).value, { (body.run _).state with bindings := _ }, (body.run _).trace⟩ :
    Outcome _) = _
  rw [h]
  rfl

/-- A bound variable gives the value of its innermost binding. -/
theorem gives_resolve {name : String} {value : Value}
    (h : Named.lookup name state.bindings = some value) : (resolve name).Gives state value := by
  refine ⟨[], ?_⟩
  rw [run_resolve, h]
  rfl

end Eval

/-! ## Nodes of expressions -/

namespace Expr

variable {ctx : Context} {state : State}

/-- So does the node of a variable, unless it is the name of the working set. -/
theorem gives_var {name : String} {value : Value} (hname : name ≠ everythingName)
    (h : Named.lookup name state.bindings = some value) :
    ((var name).value ctx).Gives state value := by
  rw [Expr.value, meaning, Meaning.ofVar, if_neg hname]
  exact Eval.gives_resolve h

/-- The node of a parameter gives its value. -/
theorem gives_parameter {ref : ParameterRef} {value : Value}
    (h : ctx.parameters.get? ref = some value) :
    ((parameter ref).value ctx).Gives state value := by
  rw [Expr.value, meaning]
  show (Eval.parameter ctx ref).Gives state value
  rw [Eval.parameter, h]
  exact Eval.gives_pure value

/-- Two operands, from left to right, and what an operator makes of them. -/
theorem gives_fits {a b : Expr} {left right : Value} {answer : Bool}
    (ha : (a.value ctx).Gives state left) (hb : (b.value ctx).Gives state right)
    (h : Operator.fit left right = .ok answer) :
    ((a.fits b).value ctx).Gives state (.boolean answer) := by
  rw [Expr.value, fits, meaning, meanings, meanings, meanings]
  refine ha.bind (hb.bind ?_)
  rw [h]
  exact Eval.gives_report [] (Value.boolean answer)

end Expr

/-! ## Properties -/

/-- The value of a property, which is absent from a record that does not name it. -/
def Record.valueOf (record : Record) (name : String) : Value :=
  (record.property? name).getD .null

namespace Expr

variable {ctx : Context} {state : State} {target : Expr} {record : Record}
  (h : (target.value ctx).Gives state record.toValue)

include h

/-- Reading a property of a record gives its value under that name. -/
theorem gives_readProperty (op : Operator) (name : String) :
    (op.readProperty (target.meaning ctx) ((literal (.string name)).meaning ctx)).Gives state
      (record.valueOf name) := by
  rw [meaning]
  refine h.bind ?_
  exact Eval.gives_report [] (record.valueOf name)

/-- So does the node of a property. -/
theorem gives_member (name : String) :
    ((target.member name).value ctx).Gives state (record.valueOf name) := by
  have hread := gives_readProperty h .member name
  rw [Expr.value, member, meaning, meanings, meanings, meanings]
  exact hread

/-- The node of a translated property gives what its value is translated to. -/
theorem gives_translated {name : String} {text : Value}
    (htext : (Operator.localize ctx (record.valueOf name)).Gives state text) :
    ((target.translated name).value ctx).Gives state text := by
  have hread := gives_readProperty h .translated name
  rw [Expr.value, translated, meaning, meanings, meanings, meanings]
  exact hread.bind htext

end Expr

/-! ## Conjunction -/

namespace Expr

variable {ctx : Context} {state : State} {first : Expr} {answer : Bool}
  (h : (first.value ctx).Gives state (.boolean answer))

include h

/-- Two conditions that give truth values give their conjunction, whether the second is asked for or
not. -/
theorem gives_and {second : Expr} {answer' : Bool}
    (h' : (second.value ctx).Gives state (.boolean answer')) :
    ((first.and second).value ctx).Gives state (.boolean (answer && answer')) := by
  have hconjunction : (Operator.conjunction [first.meaning ctx, second.meaning ctx]).Gives state
      (answer && answer') := by
    refine h.bind ?_
    rw [Value.isTrue_boolean]
    rcases answer with _ | _
    · exact Eval.gives_pure false
    · refine h'.bind ?_
      rw [Value.isTrue_boolean]
      rcases answer' with _ | _
      · exact Eval.gives_pure false
      · exact Eval.gives_pure true
  rw [Expr.value, and, meaning, meanings, meanings, meanings]
  exact hconjunction.map Value.boolean

/-- A condition that is there for some wish, and left out where there is none. -/
theorem gives_foldl_and {γ : Type} {wish : Option γ} {condition : γ → Expr} {holds : γ → Bool}
    (h' : ∀ c ∈ wish, ((condition c).value ctx).Gives state (.boolean (holds c))) :
    (((wish.map condition).toList.foldl and first).value ctx).Gives state
      (.boolean (answer && wish.all holds)) := by
  rcases wish with _ | c
  · simpa using h
  · exact gives_and h (h' c rfl)

end Expr

/-! ## Reading values at hand -/

namespace Source

variable {β γ : Type} {source : Source} (hsource : source.advance = Cursor.read)

include hsource

/-- Reading a working set of values at hand, with a reader that always goes on, is a fold over the
values. -/
theorem readWithin_workingSet {visit : β → Value → Eval (Progress β γ)} {step : β → Value → β}
    {bindings : List (String × Value)} {values : List Value}
    (hvisit : ∀ value ∈ values, ∀ gathered tape,
      (visit gathered value).Gives ⟨bindings, .taken tape⟩ (.more (step gathered value)))
    (finish : β → γ) (gathered : β) :
    ((source.readWithin visit finish (values.length + 1) .workingSet gathered).run
        ⟨bindings, .taken (.ofValues values)⟩).value = .ok (finish (values.foldl step gathered)) := by
  induction values generalizing gathered with
  | nil =>
      rw [readWithin, hsource]
      rfl
  | cons value rest ih =>
      obtain ⟨trace, hvalue⟩ := hvisit value List.mem_cons_self gathered (.ofValues rest)
      have hrest := ih (fun value hmem => hvisit value (List.mem_cons_of_mem _ hmem))
        (step gathered value)
      have hpull : Cursor.read .workingSet ⟨bindings, .taken (.ofValues (value :: rest))⟩ =
          ⟨(some (.ok value), .workingSet), ⟨bindings, .taken (.ofValues rest)⟩, []⟩ := rfl
      rw [readWithin, hsource, Eval.run_ofAction_bind, hpull]
      dsimp only
      rw [Eval.run_bind_ok (by rw [hvalue]), hvalue]
      exact hrest

end Source

end RecordQuery
