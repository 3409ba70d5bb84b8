import RecordQuery.Catalog
import RecordQuery.Proofs.Driver.Selection
import RecordQuery.Proofs.Eval.HandOver
import RecordQuery.Proofs.Eval.Positions
import RecordQuery.Proofs.Eval.Progress

/-!
# Calls of query objects without a target

A call of a query object may leave its target out. An object that tests candidates then gets the
candidate at hand, which is read like the variable `this`. An object that takes sequences gets the
working set, which is not read like the variable `everything`: a lambda that binds that name hides
the working set from the variable, and not from the call.

* `Expr.SameFrom`: two expressions that cannot be told apart from a state.
* **Main statement** (`Expr.query_none_sameFrom`): to leave the target out is to write `this` for an
  object that tests candidates, and to write `everything` for an object that takes sequences where
  no binding has that name. Where one has, and the working set is still there, the two calls differ
  (`Expr.query_none_shadowed` is such a case).
-/

namespace RecordQuery

/-! ## Sequences that are pulled on alike -/

namespace Source

variable {source other : Source} (h : source.advance = other.advance)

include h

/-- Pulling to the end depends on the pulls only. -/
theorem pullsWithin_congr_advance (fuel : Nat) (cursor : Cursor) (state : State) :
    source.pullsWithin fuel cursor state = other.pullsWithin fuel cursor state := by
  induction fuel generalizing cursor state with
  | zero => rfl
  | succ fuel ih =>
      rw [pullsWithin, pullsWithin, h]
      simp only [ih]

/-- What a reader is handed depends on how a sequence is pulled, and not on how it was opened. -/
theorem handOver_congr_advance {α : Type} (reader : Tape → Reading α) (cursor : Cursor) :
    source.handOver reader cursor = other.handOver reader cursor := by
  apply Eval.ext_run
  intro state
  show Outcome.mk _ _ _ = Outcome.mk _ _ _
  rw [pullsWithin_congr_advance h]

/-- So does what a query object comes to that is given the items. -/
theorem consult_congr_advance {α : Type} (inquiry : Inquiry α) (exchange : Exchange)
    (cursor : Cursor) :
    source.consult inquiry exchange cursor = other.consult inquiry exchange cursor := by
  have hwithin : ∀ fuel heard exchange cursor,
      source.consultWithin inquiry fuel heard exchange cursor =
        other.consultWithin inquiry fuel heard exchange cursor := by
    intro fuel
    induction fuel with
    | zero => intro heard exchange cursor; rfl
    | succ fuel ih =>
        intro heard exchange cursor
        rw [consultWithin, consultWithin, h]
        simp only [ih]
  funext state
  unfold consult
  rw [hwithin]

end Source

/-- Handing over values that are at hand leaves the state as it is, however far they are read. -/
theorem Source.state_handOver_values {α : Type} {source : Source}
    (h : source.advance = Cursor.read) (reader : Tape → Reading α) (values : List Value)
    (state : State) : ((source.handOver reader (.values values)).run state).state = state := by
  have hpulls := pullsWithin_values (fun _ => congrFun h _)
    (Nat.lt_succ_self ((Cursor.values values).bound state)) state
  rw [run_handOver]
  exact hpulls.2 _

/-- So does giving a query object the values that it asks for. -/
theorem Source.state_consult_values {α : Type} {source : Source}
    (h : source.advance = Cursor.read) (inquiry : Inquiry α) (exchange : Exchange)
    (values : List Value) (state : State) :
    (source.consult inquiry exchange (.values values) state).state = state := by
  unfold consult
  generalize (if exchange.ended then 0 else _) = fuel, [] = heard
  induction fuel generalizing heard exchange values with
  | zero => rfl
  | succ fuel ih =>
      unfold consultWithin
      rcases inquiry.next heard with trace | ⟨trace, answer⟩
      · dsimp only
        rw [Action.leave_bind_apply, Action.bind_eq_after, h]
        rcases values with _ | ⟨value, rest⟩
        · rfl
        · exact ih (exchange.receive (.ok value)) rest (.ok value :: heard)
      · rfl

/-! ## Expressions that cannot be told apart -/

/-- Evaluations that go on alike are alike if their beginnings are. -/
theorem Eval.run_bind_congr_left {α β : Type} {x y : Eval α} {f : α → Eval β} {state : State}
    (h : x.run state = y.run state) : (x >>= f).run state = (y >>= f).run state := by
  rcases hx : (x.run state).value with e | a
  · rw [run_bind_error hx, run_bind_error (h ▸ hx), h]
  · rw [run_bind_ok hx, run_bind_ok (h ▸ hx), h]

namespace Expr

/-- Two expressions have the same outcome from a state: the same result, state afterwards and trace
as a value, and the same when they are opened as a sequence, which is then pulled on alike. -/
structure SameFrom (ctx : Context) (state : State) (e e' : Expr) : Prop where
  /-- They have the same outcome as values. -/
  value : (e.value ctx).run state = (e'.value ctx).run state
  /-- They open alike. -/
  start : (e.source ctx).start.run state = (e'.source ctx).start.run state
  /-- They are pulled on alike, at every cursor and from every state. -/
  advance : (e.source ctx).advance = (e'.source ctx).advance

end Expr

/-! ## The target of a call -/

namespace Operator

variable {ctx : Context} {object : Eval Value} {target target' : Option Meaning} {state : State}

/-- A query object that is handed values leaves the state as it is. -/
theorem state_performOn_values (h : (callInput target).advance = Cursor.read) (name : String)
    (values : List Value) :
    ((performOn ctx name target (.values values)).run state).state = state := by
  unfold performOn
  split
  · rename_i perform _
    show Outcome.state (Eval.run (_ <$> _) state) = _
    rw [Eval.run_map]
    exact Source.state_handOver_values h perform values state
  · rename_i opening width pull _
    have hconsulted := Source.state_consult_values h opening .initial values state
    generalize hrun : (callInput target).consult opening .initial (.values values) state = o
      at hconsulted
    obtain ⟨⟨opened, exchange, input⟩, after, trace⟩ := o
    obtain rfl : after = state := hconsulted
    rw [Eval.run_ofAction_bind, hrun]
    rcases opened with e | _ <;> rfl

/-- What a query object makes of a sequence does not depend on how it was opened. -/
theorem performOn_congr (h : (callInput target).advance = (callInput target').advance)
    (name : String) : performOn ctx name target = performOn ctx name target' := by
  funext input
  unfold performOn
  simp only [Source.handOver_congr_advance h, Source.consult_congr_advance h]

/-- Streaming query objects pull on their input, whichever way it was opened. -/
theorem advance_querySource_congr
    (h : (callInput target).advance = (callInput target').advance) :
    (querySource ctx object target).advance = (querySource ctx object target').advance := by
  funext cursor
  rcases cursor with _ | _ | _ | _ | _ | ⟨name, width, exchange, input⟩
  case through =>
    rcases hq : ctx.queries.sequence name with perform | ⟨opening, most, pull⟩
    · rw [advance_through_of_collecting hq, advance_through_of_collecting hq]
    · rw [advance_through_of_streaming hq, advance_through_of_streaming hq,
        Source.consult_congr_advance h]
  all_goals rfl

/-- Calls on inputs that open alike and are pulled on alike have the same outcome. -/
theorem run_callSequence_congr (h : (callInput target).advance = (callInput target').advance)
    (hstart : (callInput target).start.run state = (callInput target').start.run state)
    (name : String) :
    (callSequence ctx name target).run state = (callSequence ctx name target').run state := by
  unfold callSequence
  rw [performOn_congr h]
  exact Eval.run_bind_congr_left hstart

/-- What is done with a query object, from where its evaluation ends. -/
theorem run_queryRef_bind {α : Type} {f : QueryRef → Eval α} {ref : QueryRef}
    (h : (object.run state).value = .ok (.query ref)) :
    (queryRef object >>= f).run state =
      ((f ref).run (object.run state).state).after (object.run state).trace := by
  have href : (queryRef object).run state =
      ⟨.ok ref, (object.run state).state, (object.run state).trace⟩ := by
    unfold queryRef
    rw [Eval.run_bind_ok h, Eval.run_pure]
    simp [Outcome.after]
  rw [Eval.run_bind_ok (by rw [href]), href]

end Operator

namespace Expr

variable {ctx : Context} {object : Expr} {state : State} {name : String}

/-- The value of a call of a query object. -/
theorem value_query (target : Option Expr) :
    (object.query target).value ctx =
      Operator.queryValue ctx (object.value ctx) (target.map (meaning ctx)) := by
  rw [Expr.value, query, meaning]
  rcases target with _ | target <;> rfl

/-- The sequence of a call of a query object. -/
theorem source_query (target : Option Expr) :
    (object.query target).source ctx =
      Operator.querySource ctx (object.value ctx) (target.map (meaning ctx)) := by
  rw [Expr.source, query, meaning]
  rcases target with _ | target <;> rfl

/-- Calls of one object are the same from a state if they are from where its evaluation ends. -/
theorem sameFrom_query {target target' : Option Expr} {ref : QueryRef}
    (h : ((object.value ctx).run state).value = .ok (.query ref))
    (hadvance : (Operator.callInput (target.map (meaning ctx))).advance =
      (Operator.callInput (target'.map (meaning ctx))).advance)
    (hmatching : ∀ name, ref = .matching name →
      Operator.callMatching ctx name (target.map (meaning ctx)) =
        Operator.callMatching ctx name (target'.map (meaning ctx)))
    (hsequence : ∀ name, ref = .sequence name →
      (Operator.callSequence ctx name (target.map (meaning ctx))).run
          ((object.value ctx).run state).state =
        (Operator.callSequence ctx name (target'.map (meaning ctx))).run
          ((object.value ctx).run state).state) :
    SameFrom ctx state (object.query target) (object.query target') := by
  have hpulls : (Operator.querySource ctx (object.value ctx) (target.map (meaning ctx))).advance =
      (Operator.querySource ctx (object.value ctx) (target'.map (meaning ctx))).advance :=
    Operator.advance_querySource_congr hadvance
  refine ⟨?_, ?_, ?_⟩
  · rw [value_query, value_query]
    refine (Operator.run_queryRef_bind h).trans (.trans ?_ (Operator.run_queryRef_bind h).symm)
    refine congrArg (Outcome.after _) ?_
    rcases ref with name | name
    · exact congrArg (Eval.run · _) (hmatching name rfl)
    · dsimp only
      simp only [Source.drain_congr_advance hpulls]
      exact Eval.run_bind_congr_left (hsequence name rfl)
  · rw [source_query, source_query]
    refine (Operator.run_queryRef_bind h).trans (.trans ?_ (Operator.run_queryRef_bind h).symm)
    refine congrArg (Outcome.after _) ?_
    rcases ref with name | name
    · dsimp only
      rw [hmatching name rfl]
    · exact hsequence name rfl
  · rw [source_query, source_query]
    exact hpulls

/-- **The candidate at hand is what `this` stands for.** -/
theorem query_none_sameFrom_this
    (h : ((object.value ctx).run state).value = .ok (.query (.matching name))) :
    SameFrom ctx state (object.query none) (object.query (some this)) := by
  refine sameFrom_query h ?_ ?_ (by rintro _ ⟨⟩)
  · rw [this, Option.map_some, meaning]
    rfl
  · rintro _ ⟨⟩
    show Operator.callMatching ctx name none = Operator.callMatching ctx name (some _)
    rw [this, meaning]
    rfl

/-- **The working set is what `everything` stands for**, where nothing is bound under that name. -/
theorem query_none_sameFrom_everything
    (h : ((object.value ctx).run state).value = .ok (.query (.sequence name)))
    (hunbound : Named.lookup everythingName state.bindings = none) :
    SameFrom ctx state (object.query none) (object.query (some everything)) := by
  have hlater : state.Later ((object.value ctx).run state).state :=
    object.value_obeys (State.later ctx.queries) state
  have hadvance : (Operator.callInput none).advance =
      (Operator.callInput (some (everything.meaning ctx))).advance :=
    (advance_everything ctx).symm
  refine sameFrom_query h hadvance (by rintro _ ⟨⟩) ?_
  rintro _ ⟨⟩
  refine Operator.run_callSequence_congr hadvance ?_ name
  refine (run_start_everything_of_unbound ?_).symm
  rw [hlater.bindings, hunbound]

/-! ## A binding that hides the working set -/

/-- A call on a variable that has a binding leaves the state as it is. -/
theorem state_callSequence_of_bound {value : Value}
    (h : Named.lookup everythingName state.bindings = some value) (name : String) :
    ((Operator.callSequence ctx name (some (everything.meaning ctx))).run state).state = state := by
  have hstart : (Operator.callInput (some (everything.meaning ctx))).start.run state =
      ⟨.ok (.values value.items), state, []⟩ := run_start_everything_of_bound h
  have hadvance : (Operator.callInput (some (everything.meaning ctx))).advance = Cursor.read :=
    advance_everything ctx
  unfold Operator.callSequence
  rw [Eval.run_bind_ok (by rw [hstart]), hstart]
  exact Operator.state_performOn_values hadvance name value.items

/-- A call without a target takes the working set, whatever is bound. -/
theorem taken_callSequence_none {tape : Tape} (h : state.workingSet = .available tape)
    (name : String) :
    ∃ rest, ((Operator.callSequence ctx name none).run state).state.workingSet = .taken rest := by
  have htake := Cursor.run_takeEverything_of_available h
  show ∃ rest, ((Cursor.takeEverything >>= _).run state).state.workingSet = _
  rw [Eval.run_bind_ok (by rw [htake]), htake, Outcome.after_state]
  have hgoesOn : Eval.Obeys (State.later ctx.queries)
      (Operator.performOn ctx name none .workingSet) :=
    Operator.obeys_performOn (by rintro _ ⟨⟩) name .workingSet
  have hlater : State.Later { state with workingSet := .taken tape } _ :=
    hgoesOn { state with workingSet := .taken tape }
  obtain ⟨n, hn⟩ := hlater.exists_taken rfl
  exact ⟨tape.drop n, hn⟩

/-- **A binding named `everything` tells the two calls apart** while the working set is there: the
variable is read, and the call without a target takes the working set. -/
theorem not_query_none_sameFrom_everything {tape : Tape} {value : Value}
    (h : ((object.value ctx).run state).value = .ok (.query (.sequence name)))
    (hset : ((object.value ctx).run state).state.workingSet = .available tape)
    (hbound : Named.lookup everythingName state.bindings = some value) :
    ¬SameFrom ctx state (object.query none) (object.query (some everything)) := by
  intro hsame
  have hlater : state.Later ((object.value ctx).run state).state :=
    object.value_obeys (State.later ctx.queries) state
  have hbound' : Named.lookup everythingName ((object.value ctx).run state).state.bindings =
      some value := by
    rw [hlater.bindings, hbound]
  have hleft : ((Operator.callSequence ctx name (some (everything.meaning ctx))).run
      ((object.value ctx).run state).state).state = ((object.value ctx).run state).state :=
    state_callSequence_of_bound hbound' name
  obtain ⟨rest, hrest⟩ : ∃ rest, ((Operator.callSequence ctx name none).run
      ((object.value ctx).run state).state).state.workingSet = .taken rest :=
    taken_callSequence_none hset name
  have hstart := hsame.start
  rw [source_query, source_query] at hstart
  have hstate := congrArg Outcome.state <|
    (Operator.run_queryRef_bind h).symm.trans (hstart.trans (Operator.run_queryRef_bind h))
  have hcalls : ((Operator.callSequence ctx name none).run
      ((object.value ctx).run state).state).state = ((object.value ctx).run state).state :=
    hstate.trans hleft
  rw [hcalls, hset] at hrest
  cases hrest

/-! ## All cases -/

/-- **What a call without a target stands for.** Let an expression evaluate to a query object. If
the object tests candidates, calling it without a target has the outcome of calling it on `this`. If
it takes sequences and nothing is bound under the name `everything`, calling it without a target has
the outcome of calling it on `everything`: as a value and as a sequence, with the same results,
events, pulls and state afterwards. While the working set is there to be taken, this is so only if
nothing is bound under that name. -/
theorem query_none_sameFrom {ref : QueryRef}
    (h : ((object.value ctx).run state).value = .ok (.query ref)) :
    (∀ name, ref = .matching name →
        SameFrom ctx state (object.query none) (object.query (some this))) ∧
      ∀ name, ref = .sequence name →
        (Named.lookup everythingName state.bindings = none →
          SameFrom ctx state (object.query none) (object.query (some everything))) ∧
        ∀ tape, ((object.value ctx).run state).state.workingSet = .available tape →
          (SameFrom ctx state (object.query none) (object.query (some everything)) ↔
            Named.lookup everythingName state.bindings = none) := by
  refine ⟨?_, ?_⟩
  · rintro name rfl
    exact query_none_sameFrom_this h
  · rintro name rfl
    refine ⟨query_none_sameFrom_everything h, fun tape hset => ⟨fun hsame => ?_, ?_⟩⟩
    · rcases hbound : Named.lookup everythingName state.bindings with _ | value
      · rfl
      · exact absurd hsame (not_query_none_sameFrom_everything h hset hbound)
    · exact query_none_sameFrom_everything h

/-- The context whose query object `copy` collects the sequence that it is given. -/
def copying : Context :=
  ⟨.none, none, Catalog.queries [("copy", .collection { body := everything, parameters := .none })]⟩

/-- The query object of `copying`. -/
def copy : Expr :=
  .literal (.query (.sequence "copy"))

/-- Outside of lambdas the two calls agree on a working set of two numbers. -/
theorem query_none_sameFrom_copy :
    ((copy.value copying).run ⟨[], .available (.ofValues [.integer 1, .integer 2])⟩).value =
        .ok (.query (.sequence "copy")) ∧
      SameFrom copying ⟨[], .available (.ofValues [.integer 1, .integer 2])⟩
        (copy.query none) (copy.query (some everything)) := by
  have h : ((copy.value copying).run ⟨[], .available (.ofValues [.integer 1, .integer 2])⟩).value =
      .ok (.query (.sequence "copy")) := by
    rw [copy, Expr.value, meaning]
    rfl
  exact ⟨h, ((query_none_sameFrom h).2 "copy" rfl).1 rfl⟩

/-- Under a lambda that binds `everything` to the number 5, the call on `everything` gives the list
of that number, and the call without a target gives the working set. -/
theorem query_none_shadowed :
    let perItem (call : Expr) : Expr :=
      (literal (.list [.integer 5])).filtered .collect (some ⟨everythingName, call⟩)
    let state : State := ⟨[], .available (.ofValues [.integer 1, .integer 2])⟩
    (((perItem (copy.query (some everything))).value copying).run state).value =
        .ok (.list [.list [.integer 5]]) ∧
      (((perItem (copy.query none)).value copying).run state).value =
        .ok (.list [.list [.integer 1, .integer 2]]) := by
  constructor <;> rfl

end Expr

end RecordQuery
