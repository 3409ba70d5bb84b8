import RecordQuery.Proofs.Eval.Fusion

/-!
# An expression as a value and as a sequence

Every expression can stand where a value is wanted and where a sequence is wanted, and the two are
computed by different rules: most operators compute a value whose items make up the sequence,
filters open a sequence whose items make up the value, and the working set and calls of query
objects have a rule of their own for either position.

**Main statement** (`Expr.run_collect_eq`): the two positions agree on every expression. Collecting
the sequence and taking the items of the value have the same result, a list or an error, and leave
the same state and the same trace, from every state and in every context. No induction is needed:
at each node the two rules are compared for arbitrary operands.
-/

namespace RecordQuery

/-! ## Sequences of few values -/

namespace Source

variable {β γ : Type}

/-- Reading a sequence depends on how it is pulled, and not on how it was opened. -/
theorem readWithin_congr_advance {source other : Source} (h : source.advance = other.advance)
    (visit : β → Value → Eval (Progress β γ)) (finish : β → γ) (fuel : Nat) (cursor : Cursor)
    (gathered : β) :
    source.readWithin visit finish fuel cursor gathered =
      other.readWithin visit finish fuel cursor gathered := by
  induction fuel generalizing cursor gathered with
  | zero => rfl
  | succ fuel ih =>
      rw [readWithin, readWithin, h]
      simp only [ih]

/-- Listing the rest of a sequence depends on its pulls only. -/
theorem drain_congr_advance {source other : Source} (h : source.advance = other.advance)
    (cursor : Cursor) : source.drain cursor = other.drain cursor := by
  apply Eval.ext_run
  intro state
  show (source.readWithin _ _ (cursor.bound state + 1) cursor []).run state = _
  rw [readWithin_congr_advance h]
  rfl

end Source

namespace Operator

variable (ctx : Context) (object : Eval Value) (target : Option Meaning)

/-- The answer to a test is a truth value, and so its only item. -/
theorem items_callMatching (name : String) :
    Value.items <$> callMatching ctx name target =
      (fun answer => [answer]) <$> callMatching ctx name target := by
  have hanswer : ∀ candidate : Value,
      let verdict := (ctx.queries.matching name).test candidate
      let answer : Eval Value := Eval.report verdict.trace (verdict.result.map Value.boolean)
      Value.items <$> answer = (fun answer => [answer]) <$> answer := by
    intro candidate
    apply Eval.ext_run
    intro state
    rw [Eval.run_map, Eval.run_map, Eval.run_report]
    rcases ((ctx.queries.matching name).test candidate).result with e | passes <;> rfl
  unfold callMatching
  rcases target with _ | target
  · simp only [map_bind, hanswer]
  · simp only [map_bind, hanswer]

/-- Values at hand are listed as they are, whatever is called. -/
theorem drain_querySource_values (values : List Value) :
    (querySource ctx object target).drain (.values values) = pure values :=
  Source.drain_values (fun _ => rfl) values

/-- A call of a query object: a test gives one item, and what a sequence gives is collected. -/
theorem collect_querySource :
    (querySource ctx object target).collect = Value.items <$> queryValue ctx object target := by
  unfold Source.collect queryValue
  rw [map_bind]
  show (queryRef object >>= _) >>= _ = _
  rw [bind_assoc]
  congr 1
  funext ref
  rcases ref with name | name
  · dsimp only
    rw [items_callMatching, map_eq_pure_bind, bind_assoc]
    simp only [pure_bind, drain_querySource_values]
  · simp only [map_bind, map_pure, Value.items, bind_pure]

end Operator

/-! ## Nodes -/

namespace Meaning

/-- The two positions of an expression agree: its sequence gives the items of its value. -/
def Agrees (m : Meaning) : Prop :=
  m.source.collect = Value.items <$> m.value

/-- The positions of a value agree. -/
theorem agrees_ofValue (value : Eval Value) : (ofValue value).Agrees :=
  Source.collect_ofValue value

/-- So do those of a sequence. -/
theorem agrees_ofSource (source : Source) : (ofSource source).Agrees := by
  show source.collect = Value.items <$> (Value.list <$> source.collect)
  rw [← comp_map]
  exact (id_map _).symm

/-- The working set agrees in both cases: a binding of its name is read as a value, and the working
set itself is collected. -/
theorem agrees_ofVar (name : String) : (ofVar name).Agrees := by
  unfold ofVar
  split
  · have hbound : ∀ bound : Bool,
        (if bound then (Source.ofValue (Eval.resolve name)).start else Source.everything.start) >>=
            Source.everything.drain =
          Value.items <$> (if bound then Eval.resolve name
            else do return .list (← Source.everything.collect)) := by
      intro bound
      rcases bound with _ | _
      · simp only [Bool.false_eq_true, if_false, map_bind, map_pure, Value.items, bind_pure]
        rfl
      · simp only [if_true]
        rw [← Source.collect_ofValue, Source.collect]
        congr 1
        funext cursor
        refine Source.drain_congr_advance ?_ cursor
        rfl
    show ((Eval.isBound name >>= _) >>= _ : Eval (List Value)) =
      Value.items <$> (Eval.isBound name >>= _)
    rw [bind_assoc, map_bind]
    congr 1
    funext bound
    rw [← hbound bound]
    congr 1
    funext cursor
    refine Source.drain_congr_advance ?_ cursor
    rfl
  · exact agrees_ofValue _

/-- So do those of a call of a query object. -/
theorem agrees_query (ctx : Context) (object : Meaning) (target : Option Meaning) :
    (ofCall.query ctx object target).Agrees :=
  Operator.collect_querySource ctx object.value target

/-- An operator agrees, whatever its operands: a limit is a sequence by nature, a call of a query
object has a rule for either position, and all others are values, a wrong number of operands
included. -/
theorem agrees_ofCall (ctx : Context) (op : Operator) (operands : List Meaning) :
    (ofCall ctx op operands).Agrees := by
  unfold ofCall
  split
  case h_17 => exact agrees_ofSource _
  case h_18 => exact agrees_query ctx _ none
  case h_19 target => exact agrees_query ctx _ (some target)
  all_goals exact agrees_ofValue _

/-- So do those of filters without a lambda. -/
theorem agrees_ofFilter (kind : FilterKind) (source : Meaning) :
    (ofFilter kind source).Agrees := by
  unfold ofFilter
  split <;> exact agrees_ofSource _

/-- So do those of filters with one. -/
theorem agrees_ofFilterBy (kind : FilterKind) (source : Meaning) (binder : Binder) :
    (ofFilterBy kind source binder).Agrees := by
  rcases kind
  case select => exact agrees_ofSource (source.source.sifted true binder)
  all_goals exact agrees_ofSource _

end Meaning

/-! ## Expressions -/

namespace Expr

/-- The two positions of every expression agree. -/
theorem meaning_agrees (ctx : Context) (e : Expr) : (e.meaning ctx).Agrees := by
  rcases e with value | name | ref | ⟨binder, body⟩ | ⟨op, operands⟩ | ⟨kind, source⟩ |
    ⟨kind, source, binder, body⟩
  all_goals rw [meaning]
  case literal => exact Meaning.agrees_ofValue (pure value)
  case var => exact Meaning.agrees_ofVar name
  case parameter => exact Meaning.agrees_ofValue (Eval.parameter ctx ref)
  case lambda => exact Meaning.agrees_ofValue _
  case call => exact Meaning.agrees_ofCall ctx op (meanings ctx operands)
  case filter => exact Meaning.agrees_ofFilter kind (source.meaning ctx)
  case filterBy => exact Meaning.agrees_ofFilterBy kind (source.meaning ctx) _

/-- **A value and a sequence in one.** From every state and in every context, opening an expression
as a sequence and collecting it to the end has the outcome of evaluating it and taking the items of
its value: the list of those items or the same error, the same state afterwards (bindings, and what
is left of the working set), and the same trace (pulls, lookups and events of query objects, in
order). -/
theorem run_collect_eq (ctx : Context) (e : Expr) (state : State) :
    (e.source ctx).collect.run state =
      ⟨((e.value ctx).run state).value.map Value.items, ((e.value ctx).run state).state,
        ((e.value ctx).run state).trace⟩ := by
  have hagrees : (e.source ctx).collect = Value.items <$> e.value ctx := meaning_agrees ctx e
  rw [hagrees, Eval.run_map]

end Expr

end RecordQuery
