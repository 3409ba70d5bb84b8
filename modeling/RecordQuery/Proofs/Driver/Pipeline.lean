import RecordQuery.Proofs.Driver.Brackets
import RecordQuery.Proofs.Eval.Blame
import RecordQuery.Proofs.Eval.HandOver
import RecordQuery.Proofs.Eval.Targets

/-!
# Pipelines of collection drivers

A collection driver can be called from a query, and its input is then a sequence of the query that
calls it: the working set, or what another driver made of it. Each driver evaluates in a context of
its own, which reads its input through the context of the caller, pull by pull.

* `CollectionDriver.perform_of_plain_eq`: a driver cannot tell whether a silent end of its input is
  still to be found.
* `CollectionDriver.run_handOver_everything`: so it makes of the working set of its caller what it
  makes of the tape itself.
* **Main statement** (`CollectionDriver.perform_pipeline`): a query that calls one driver on what
  another makes of the working set is the two performances, one after the other.
-/

namespace RecordQuery

/-- A reading and, if it succeeds, another one over its result. What the first leaves is left. -/
def Reading.andThen {α β : Type} (first : Reading α) (next : α → Reading β) : Reading β :=
  match first.result with
  | .error e => ⟨.error e, first.rest, first.trace⟩
  | .ok a => ⟨(next a).result, first.rest, first.trace ++ (next a).trace⟩

/-- What two readings leave is what the first of them leaves. -/
theorem Reading.rest_andThen {α β : Type} (first : Reading α) (next : α → Reading β) :
    (first.andThen next).rest = first.rest := by
  unfold andThen
  split <;> rfl

/-- What follows an evaluation without a step of its own. -/
theorem Eval.run_bind_of_run_eq_map {α β γ : Type} {x : Eval β} {g : α → β} {f : β → Eval γ}
    {p : α → γ} {result : Except QueryError α} {state after : State} {trace : Trace}
    (h : x.run state = ⟨result.map g, after, trace⟩) (hf : ∀ a, f (g a) = pure (p a)) :
    (x >>= f).run state = ⟨result.map p, after, trace⟩ := by
  rcases result with e | a
  · rw [run_bind_error (by rw [h]; rfl), h]
    rfl
  · rw [run_bind_ok (by rw [h]; rfl), hf, h]
    simp [Outcome.after, Except.map]

namespace CollectionDriver

variable (driver : CollectionDriver) (queries : Registry)

/-! ## Performances over handed tapes -/

/-- **A driver does not see how its input ends.** Over tapes of the same plain form it has the same
result and the same trace, and leaves tapes of the same plain form. -/
theorem perform_of_plain_eq {tape tape' : Tape} (h : tape'.plain = tape.plain) :
    (driver.perform queries tape').result = (driver.perform queries tape).result ∧
      (driver.perform queries tape').trace = (driver.perform queries tape).trace ∧
      (driver.perform queries tape').rest.plain = (driver.perform queries tape).rest.plain := by
  rcases hcheck : driver.check with e | _
  · rw [driver.perform_eq_of_check_eq_error queries hcheck,
      driver.perform_eq_of_check_eq_error queries hcheck]
    exact ⟨rfl, rfl, h⟩
  · rw [driver.perform_eq_bracket_reading queries hcheck,
      driver.perform_eq_bracket_reading queries hcheck]
    -- the two runs of the body go on side by side, with working sets that are twins
    let c : Comparison queries := .anyError queries .twins
    have hsuits : @Comparison.Suits (driver.context queries) c (fun _ => True) [] driver.body :=
      ⟨fun _ _ _ _ => trivial, fun _ _ _ => trivial, fun _ _ => trivial⟩
    have halike := Expr.meaning_alike driver.body [] hsuits
    have hrelated : c.Related (Bindings.Agree (fun _ => True) []) ⟨[], .available tape⟩
        ⟨[], .available tape'⟩ :=
      ⟨⟨fun _ _ => rfl, List.forall_mem_nil _⟩, congrArg WorkingSet.available h,
        fun _ _ => trivial⟩
    have hmeets := halike.source.collect _ _ hrelated
    refine ⟨hmeets.value, ?_, State.plain_remaining hmeets.workingSets.1⟩
    show driver.setup ++ _ ++ driver.teardown = driver.setup ++ _ ++ driver.teardown
    exact congrArg (driver.setup ++ · ++ driver.teardown) hmeets.trace

/-- What a performance leaves is what some pulls leave. -/
theorem exists_rest_perform_eq (input : Tape) :
    ∃ n, (driver.perform queries input).rest = input.drop n := by
  rcases hcheck : driver.check with e | _
  · rw [driver.perform_eq_of_check_eq_error queries hcheck]
    exact ⟨0, input.drop_zero.symm⟩
  · rw [driver.perform_eq_bracket_reading queries hcheck]
    have hbody : Source.Obeys (State.later queries)
        (driver.body.source (driver.context queries)) :=
      @Expr.source_obeys (driver.context queries) (State.later queries) driver.body
    exact (hbody.collect.advances ⟨[], .available input⟩).exists_remaining_eq

/-- **A driver that is handed the working set performs over it**: it has the result and the trace of
a performance over the tape, and what the performance leaves is left in the working set. -/
theorem run_handOver_everything (bindings : List (String × Value)) (tape : Tape) :
    (Source.everything.handOver (driver.perform queries) .workingSet).run
        ⟨bindings, .taken tape⟩ =
      ⟨(driver.perform queries tape).result,
        ⟨bindings, .taken (driver.perform queries tape).rest⟩,
        (driver.perform queries tape).trace⟩ := by
  have hfuel : tape.itemCount < Cursor.workingSet.bound ⟨bindings, .taken tape⟩ + 1 :=
    Nat.lt_succ_self _
  obtain ⟨htape, hstates⟩ := Source.pullsWithin_everything hfuel bindings
  obtain ⟨hresult, htrace, hplain⟩ := driver.perform_of_plain_eq queries tape.plain_handed
  have hrest : tape.drop (tape.handed.length -
      (driver.perform queries tape.handed).rest.length) = (driver.perform queries tape).rest :=
    Tape.drop_of_handed (driver.exists_rest_perform_eq queries tape)
      (driver.exists_rest_perform_eq queries tape.handed) hplain fun hsame => by rw [hsame]
  rw [Source.run_handOver]
  dsimp only
  rw [htape, hstates, hrest, hresult, htrace]

/-- A driver that is handed values performs over them. -/
theorem run_handOver_values {source : Source}
    (hadvance : ∀ values, source.advance (.values values) = Cursor.read (.values values))
    (values : List Value) (state : State) :
    (source.handOver (driver.perform queries) (.values values)).run state =
      ⟨(driver.perform queries (.ofValues values)).result, state,
        (driver.perform queries (.ofValues values)).trace⟩ := by
  have hfuel : values.length < (Cursor.values values).bound state + 1 := Nat.lt_succ_self _
  obtain ⟨htape, hstates⟩ := Source.pullsWithin_values hadvance hfuel state
  obtain ⟨hresult, htrace, -⟩ :=
    driver.perform_of_plain_eq queries (Tape.ofValues values).plain_handed
  rw [Source.run_handOver]
  dsimp only
  rw [htape, hstates, hresult, htrace]

end CollectionDriver

/-! ## Calls of drivers -/

namespace Expr

/-- The query object of a name, which takes sequences. -/
def sequenceQuery (name : String) : Expr :=
  .literal (.query (.sequence name))

variable {ctx : Context} {name : String} {target : Option Expr} {state after : State}
  {result : Except QueryError (List Value)} {trace : Trace}

/-- What is done with a query object that is at hand. -/
theorem run_sequenceQuery_bind {α : Type} (f : QueryRef → Eval α) (state : State) :
    (Operator.queryRef ((sequenceQuery name).value ctx) >>= f).run state =
      (f (.sequence name)).run state := by
  have hvalue : ((sequenceQuery name).value ctx).run state =
      ⟨.ok (.query (.sequence name)), state, []⟩ := by
    rw [Expr.value, sequenceQuery, meaning]
    rfl
  have href : (((sequenceQuery name).value ctx).run state).value =
      .ok (.query (.sequence name)) := by rw [hvalue]
  rw [Operator.run_queryRef_bind href, hvalue]
  rfl

/-- A call of a sequence query is opened by giving the query its sequence. -/
theorem run_start_query (state : State) :
    (((sequenceQuery name).query target).source ctx).start.run state =
      (Operator.callSequence ctx name (target.map (meaning ctx))).run state := by
  rw [source_query]
  exact run_sequenceQuery_bind _ state

/-- A call that leaves a list when it is opened is collected to that list. -/
theorem run_collect_query_of_start
    (h : (((sequenceQuery name).query target).source ctx).start.run state =
      ⟨result.map Cursor.values, after, trace⟩) :
    (((sequenceQuery name).query target).source ctx).collect.run state =
      ⟨result, after, trace⟩ := by
  rw [source_query] at h ⊢
  rw [Source.collect]
  refine (Eval.run_bind_of_run_eq_map (p := id) h fun values => ?_).trans ?_
  · exact Operator.drain_querySource_values _ _ _ values
  · cases result <;> rfl

/-- A call that leaves a list when it is opened has that list as its value. -/
theorem run_value_query_of_start
    (h : (((sequenceQuery name).query target).source ctx).start.run state =
      ⟨result.map Cursor.values, after, trace⟩) :
    (((sequenceQuery name).query target).value ctx).run state =
      ⟨result.map Value.list, after, trace⟩ := by
  rw [run_start_query] at h
  rw [value_query]
  refine (run_sequenceQuery_bind _ state).trans ?_
  refine Eval.run_bind_of_run_eq_map h fun values => ?_
  rw [Operator.drain_querySource_values]
  rfl

variable {driver : CollectionDriver} {queries : Registry}
  (hq : ctx.queries.sequence name = driver.toQuery queries)

include hq

/-- A call of a driver leaves the list of its performance. -/
theorem run_performOn_driver {input : Option Meaning} {cursor : Cursor}
    (h : ((Operator.callInput input).handOver (driver.perform queries) cursor).run state =
      ⟨result, after, trace⟩) :
    (Operator.performOn ctx name input cursor).run state =
      ⟨result.map Cursor.values, after, trace⟩ := by
  have hperformOn : Operator.performOn ctx name input cursor =
      Cursor.values <$> (Operator.callInput input).handOver (driver.perform queries) cursor := by
    unfold Operator.performOn
    rw [hq]
    rfl
  rw [hperformOn, Eval.run_map, h]

/-- **A call of a driver without a target is its performance over the working set.** -/
theorem run_start_query_none {tape : Tape} (h : state.workingSet = .available tape) :
    (((sequenceQuery name).query none).source ctx).start.run state =
      ⟨(driver.perform queries tape).result.map Cursor.values,
        { state with workingSet := .taken (driver.perform queries tape).rest },
        (driver.perform queries tape).trace⟩ := by
  have htake := Cursor.run_takeEverything_of_available h
  have hperform : ((Operator.callInput none).handOver (driver.perform queries) .workingSet).run
      { state with workingSet := .taken tape } = _ :=
    driver.run_handOver_everything queries state.bindings tape
  rw [run_start_query]
  show (Cursor.takeEverything >>= Operator.performOn ctx name none).run state = _
  rw [Eval.run_bind_ok (by rw [htake]), htake, run_performOn_driver hq hperform]
  rfl

/-- **A call of a driver on what leaves a list when it is opened** is a performance over that
list, if there is one. -/
theorem run_start_query_some {operand : Expr}
    (h : (operand.source ctx).start.run state = ⟨result.map Cursor.values, after, trace⟩)
    (hadvance : ∀ values, (operand.source ctx).advance (.values values) =
      Cursor.read (.values values)) (rest : Tape) :
    let both := (⟨result, rest, trace⟩ : Reading _).andThen fun values =>
      driver.perform queries (.ofValues values)
    (((sequenceQuery name).query (some operand)).source ctx).start.run state =
      ⟨both.result.map Cursor.values, after, both.trace⟩ := by
  rw [run_start_query]
  show ((operand.source ctx).start >>= Operator.performOn ctx name (some _)).run state = _
  rcases result with e | values
  · rw [Eval.run_bind_error (by rw [h]; rfl), h]
    rfl
  · have hperform : ((Operator.callInput (some (operand.meaning ctx))).handOver
        (driver.perform queries) (.values values)).run after = _ :=
      driver.run_handOver_values queries hadvance values after
    rw [Eval.run_bind_ok (by rw [h]; rfl), h]
    exact congrArg (Outcome.after trace) (run_performOn_driver hq hperform)

end Expr

/-! ## Pipelines -/

/-- **A call of a driver without a target has the outcome of a performance over the working set**,
in which it leaves what the performance leaves. The bindings at hand play no part. -/
theorem Expr.run_query_none {ctx : Context} {name : String} {driver : CollectionDriver}
    {queries : Registry} (hq : ctx.queries.sequence name = driver.toQuery queries) {state : State}
    {tape : Tape} (h : state.workingSet = .available tape) :
    let reading := driver.perform queries tape
    let after := { state with workingSet := .taken reading.rest }
    (((sequenceQuery name).query none).value ctx).run state =
        ⟨reading.result.map Value.list, after, reading.trace⟩ ∧
      (((sequenceQuery name).query none).source ctx).collect.run state =
        ⟨reading.result, after, reading.trace⟩ := by
  have hstart := run_start_query_none hq h
  exact ⟨run_value_query_of_start hstart, run_collect_query_of_start hstart⟩

namespace CollectionDriver

/-- **A driver that is not announced, and whose body calls one driver on what another makes of the
working set, performs both, one after the other.** -/
theorem perform_eq_andThen {first second pipeline : CollectionDriver}
    {inner inner' outer : Registry} {name name' : String} (hfirst : outer.sequence name = first.toQuery inner)
    (hsecond : outer.sequence name' = second.toQuery inner') (hhooks : pipeline.hooks = none)
    (hbody : pipeline.body = (Expr.sequenceQuery name').query
      (some ((Expr.sequenceQuery name).query none))) (input : Tape) :
    pipeline.perform outer input =
      (first.perform inner input).andThen fun values =>
        second.perform inner' (.ofValues values) := by
  have hcheck : pipeline.check = .ok () := by
    unfold Prepared.check
    rw [hbody]
    rfl
  have hfirst' : (pipeline.context outer).queries.sequence name = first.toQuery inner := hfirst
  have hsecond' : (pipeline.context outer).queries.sequence name' = second.toQuery inner' := hsecond
  have hset : (State.mk [] (.available input)).workingSet = .available input := rfl
  have hstart := Expr.run_start_query_none hfirst' hset
  have hboth := Expr.run_collect_query_of_start <|
    Expr.run_start_query_some hsecond' hstart (fun _ => rfl) (first.perform inner input).rest
  rw [pipeline.perform_eq_bracket_reading outer hcheck]
  unfold reading Prepared.setup Prepared.teardown
  rw [hbody, hhooks, hboth]
  set both := (first.perform inner input).andThen fun values =>
    second.perform inner' (.ofValues values)
  have hrest : both.rest = (first.perform inner input).rest := Reading.rest_andThen _ _
  show (⟨both.result, (first.perform inner input).rest, [] ++ both.trace ++ []⟩ : Reading _) = both
  rw [← hrest, List.nil_append, List.append_nil]

/-- **Drivers compose as pipelines.** Take two drivers that are registered as query objects,
whatever their bodies, parameters, hooks and texts.

* A driver that is not announced, and whose body calls the second on what the first makes of the
  working set, has over every input the reading of the first performance and, if that succeeds, of
  the second performance over its list: the same result or the same failure, the same events in the
  same order, and the same rest of the input.
* In every context with a working set that was not taken, a call of a driver without a target has
  the outcome of its performance over the working set, as a value and as a sequence, and leaves in
  the working set what that performance leaves. -/
theorem perform_pipeline {first second : CollectionDriver} {inner inner' outer : Registry}
    {name name' : String} (hfirst : outer.sequence name = first.toQuery inner)
    (hsecond : outer.sequence name' = second.toQuery inner') :
    (∀ pipeline : CollectionDriver, pipeline.hooks = none →
        pipeline.body = (Expr.sequenceQuery name').query
          (some ((Expr.sequenceQuery name).query none)) →
        ∀ input, pipeline.perform outer input =
          (first.perform inner input).andThen fun values =>
            second.perform inner' (.ofValues values)) ∧
      ∀ (ctx : Context) (state : State) (tape : Tape), ctx.queries = outer →
        state.workingSet = .available tape →
        let reading := first.perform inner tape
        let after := { state with workingSet := .taken reading.rest }
        (((Expr.sequenceQuery name).query none).value ctx).run state =
            ⟨reading.result.map Value.list, after, reading.trace⟩ ∧
          (((Expr.sequenceQuery name).query none).source ctx).collect.run state =
            ⟨reading.result, after, reading.trace⟩ := by
  refine ⟨fun pipeline hhooks hbody input => ?_, fun ctx state tape hctx hset => ?_⟩
  · exact perform_eq_andThen hfirst hsecond hhooks hbody input
  · exact Expr.run_query_none (hctx ▸ hfirst) hset

/-- A driver that collects what it is given and announces its runs under a name. -/
def announced (name : String) : CollectionDriver where
  body := Expr.everything
  parameters := .none
  hooks := some name

/-- A pipeline of two announced drivers: each is over before the next begins, and a failing item
ends the first of them and keeps the second from its run. -/
theorem perform_pipeline_announced :
    let catalog : Catalog :=
      [("one", .collection (announced "one")), ("two", .collection (announced "two"))]
    let pipeline : CollectionDriver :=
      { body := (Expr.sequenceQuery "two").query (some ((Expr.sequenceQuery "one").query none))
        parameters := .none }
    pipeline.perform catalog.queries (.ofItems [.ok (.integer 1)]) =
        ⟨.ok [.integer 1], .spent,
          [.reached "one" .setup, .pulled, .reached "one" .teardown,
            .reached "two" .setup, .reached "two" .teardown]⟩ ∧
      pipeline.perform catalog.queries
          (.ofItems [.error (.variableUnbound "x"), .ok (.integer 1)]) =
        ⟨.error (.variableUnbound "x"), .ofItems [.ok (.integer 1)],
          [.reached "one" .setup, .pulled, .reached "one" .teardown]⟩ := by
  intro catalog pipeline
  have hone : catalog.queries.sequence "one" = (announced "one").toQuery (catalog.registry 999) :=
    rfl
  have htwo : catalog.queries.sequence "two" = (announced "two").toQuery (catalog.registry 999) :=
    rfl
  have hpipeline := (perform_pipeline hone htwo).1 pipeline rfl rfl
  rw [hpipeline, hpipeline]
  constructor <;> rfl

end CollectionDriver

end RecordQuery
