import RecordQuery.Proofs.Driver.Brackets
import RecordQuery.Proofs.Eval.Blame
import RecordQuery.Proofs.Eval.Fusion
import RecordQuery.Proofs.Eval.Gives
import RecordQuery.Proofs.Eval.Sifting

/-!
# Three ways of filtering by a predicate

A predicate can be performed by a match driver, it can be the lambda of a selection from the working
set of a collection driver, and the match driver can be called as a query object on each item of
such a selection. The first tests candidates in one loop and one state; the second pulls them lazily
from a working set that is taken by then; the third tests each in a fresh state of its own.

* `Eval.Decides` is what a lambda has to do for such a selection to perform like a match driver.
* `CollectionDriver.perform_eq_bracket_siftEach`: then it does, pull by pull.
* `MatchDriver.decides_body` and `Lambda.decides_query`: a predicate that leaves the working set
  alone does that, and so does a call of a query object.
* **Main statement** (`MatchDriver.perform_eq_selection`): the three performances are one reading of
  the sequence, each between its own announcements.
-/

namespace RecordQuery

/-! ## Lambdas that decide -/

/-- Testing a value is running the body with one more binding, which is released at the end. -/
theorem Binder.run_test (binder : Binder) (argument : Value) (state : State) :
    (binder.test argument).run state =
      let o := binder.body.run { state with bindings := (binder.name, argument) :: state.bindings }
      ⟨o.value.map Value.isTrue, { o.state with bindings := o.state.bindings.tail }, o.trace⟩ :=
  Eval.run_map Value.isTrue (binder.apply argument) state

/-! ## Selections from the working set -/

namespace Source

/-- What a selection does with a value: it is kept if the lambda says so. -/
def keeping (binder : Binder) (gathered : List Value) (value : Value) :
    Eval (Progress (List Value) (List Value)) := do
  if ← binder.test value then pure (.more (value :: gathered)) else return .more gathered

variable {queries : Registry} {binder : Binder} {test : Value → Verdict}

/-- Keeping what passes is gathering it. -/
theorem keeping_eq_gathering (binder : Binder) :
    keeping binder = gathering binder.test fun gathered value => value :: gathered := by
  funext gathered value
  unfold keeping gathering
  congr 1
  funext passes
  cases passes <;> rfl

/-- Reading the working set with a lambda that decides gathers what passes its test. -/
theorem run_readFrom_keeping (hb : Binder.Obeys (State.later queries) binder)
    (h : Eval.Decides binder.test [] test) {source : Source} (hsource : source.advance = Cursor.read)
    (tape : Tape) :
    (source.readFrom (keeping binder) List.reverse .workingSet []).run ⟨[], .taken tape⟩ =
      ⟨(tape.siftEach test).result, ⟨[], .taken (tape.siftEach test).rest⟩,
        (tape.siftEach test).trace⟩ := by
  rw [keeping_eq_gathering,
    run_readFrom_gathering hsource (fun value => (hb.test value).advances) h]
  rcases (tape.siftEach test).result with e | values
  · rfl
  · simp [Except.map]

end Source

/-- A selection from the working set tests the items one by one. -/
theorem Expr.run_collect_select_everything {ctx : Context} {condition : Lambda}
    {test : Value → Verdict} (h : Eval.Decides (condition.meaning ctx).test [] test) (input : Tape) :
    ((everything.select condition).source ctx).collect.run ⟨[], .available input⟩ =
      ⟨(input.siftEach test).result, ⟨[], .taken (input.siftEach test).rest⟩,
        (input.siftEach test).trace⟩ := by
  have hb := condition.meaning_obeys (State.later ctx.queries)
  have hread : ((everything.select condition).source ctx).collect =
      (everything.source ctx).read (Source.keeping (condition.meaning ctx)) List.reverse [] := by
    rw [source_select]
    exact (everything.source_descends ctx).read_sifted (fun _ _ => Eval.obeys_pure _) hb []
  have hstart : (everything.source ctx).start.run ⟨[], .available input⟩ =
      ⟨.ok .workingSet, ⟨[], .taken input⟩, []⟩ := run_start_everything_of_available rfl input
  rw [hread]
  unfold Source.read
  rw [Eval.run_bind_ok (by rw [hstart]), hstart]
  dsimp only
  rw [Source.run_readFrom_keeping hb h (advance_everything ctx)]
  rfl

/-- **A selection from the working set by a lambda that decides performs like a match driver**, with
the announcements of its own driver. -/
theorem CollectionDriver.perform_eq_bracket_siftEach {driver : CollectionDriver}
    {condition : Lambda} (hbody : driver.body = Expr.everything.select condition)
    {queries : Registry} {test : Value → Verdict}
    (h : Eval.Decides (condition.meaning (driver.context queries)).test [] test)
    (hcheck : driver.check = .ok ()) (input : Tape) :
    driver.perform queries input =
      (input.siftEach test).bracket driver.setup driver.teardown := by
  have hreading : driver.reading queries input = input.siftEach test := by
    unfold reading
    rw [hbody, Expr.run_collect_select_everything h]
    rfl
  rw [driver.perform_eq_bracket_reading queries hcheck, hreading]

/-! ## The predicate itself -/

namespace MatchDriver

variable {driver : MatchDriver}

/-- A predicate that leaves the working set alone decides like the test of its driver: it does not
matter whether there is no working set or one that was taken. -/
theorem decides_body {queries : Registry} (hcheck : driver.check = .ok ())
    (hshape : driver.shape = .any) (hset : driver.body.mentionsWorkingSet = false) :
    Eval.Decides ((⟨Expr.thisName, driver.body⟩ : Lambda).meaning (driver.context queries)).test []
      (driver.test queries) := by
  intro value tape
  let ctx := driver.context queries
  let fresh : State := ⟨[(Expr.thisName, value)], .unset⟩
  let selecting : State := ⟨[(Expr.thisName, value)], .taken tape⟩
  -- the two runs have different working sets, and neither of them is read
  let c : Comparison ctx.queries := .anyError queries (.apart .unset (.taken tape))
  have hsuits : c.Suits (fun _ => True) [] driver.body := by
    refine ⟨fun _ _ _ _ => trivial, fun node hnode huses => ?_, fun _ _ => trivial⟩
    have hmentions : driver.body.mentionsWorkingSet = true :=
      List.any_eq_true.mpr ⟨node, hnode, huses⟩
    rw [hset] at hmentions
    cases hmentions
  have hrelated : c.Related (Bindings.Agree (fun _ => True) []) fresh selecting :=
    ⟨⟨fun _ _ => rfl, List.forall_mem_nil _⟩, rfl, rfl⟩
  have hmeets := (driver.body.meaning_alike [] hsuits).value fresh selecting hrelated
  have haccepts : driver.shape.accepts value = true := by
    rw [hshape]
    rfl
  rw [driver.test_eq_of_accepts queries hcheck haccepts, Expr.isTrue, Eval.run_map, Binder.run_test]
  let o := (driver.body.value ctx).run fresh
  let o' := (driver.body.value ctx).run selecting
  have hvalue : o'.value = o.value := hmeets.value
  have htrace : o'.trace = o.trace := hmeets.trace
  have hbindings : o'.state.bindings = [(Expr.thisName, value)] := hmeets.right
  have htaken : o'.state.workingSet = .taken tape := hmeets.workingSets.2
  show (⟨o'.value.map Value.isTrue, ⟨o'.state.bindings.tail, o'.state.workingSet⟩, o'.trace⟩ :
    Outcome _) = ⟨o.value.map Value.isTrue, ⟨[], .taken tape⟩, o.trace⟩
  rw [hvalue, htrace, hbindings, htaken]
  rfl

end MatchDriver

/-! ## A call of the match driver -/

/-- A variable that has a binding is read, whatever its name. -/
theorem Meaning.run_value_ofVar {name : String} {state : State} {value : Value}
    (h : Named.lookup name state.bindings = some value) :
    (ofVar name).value.run state = ⟨.ok value, state, []⟩ := by
  have hresolve : (Eval.resolve name).run state = ⟨.ok value, state, []⟩ := by
    rw [Eval.run_resolve, h]
    rfl
  unfold ofVar
  split
  · rw [← hresolve]
    refine (Eval.run_ifBound name _ _ state).trans ?_
    rw [h]
    rfl
  · exact hresolve

/-- A lambda that calls a query object on its variable decides like the test of the object. -/
theorem Lambda.decides_query (ctx : Context) (name binder : String) :
    Eval.Decides ((⟨binder, .query (.literal (.query (.matching name)))
      (some (.var binder))⟩ : Lambda).meaning ctx).test [] (ctx.queries.matching name).test := by
  intro value tape
  let bound : State := ⟨[(binder, value)], .taken tape⟩
  have hvar : (Meaning.ofVar binder).value.run bound = ⟨.ok value, bound, []⟩ :=
    Meaning.run_value_ofVar (Named.lookup_cons_self _ _ _)
  have hcall : (Operator.callMatching ctx name (some (.ofVar binder))).run bound =
      ⟨((ctx.queries.matching name).test value).result.map Value.boolean, bound,
        ((ctx.queries.matching name).test value).trace⟩ := by
    unfold Operator.callMatching
    rw [Eval.run_bind_ok (by rw [hvar]), hvar]
    rfl
  have hvalue : (Expr.query (.literal (.query (.matching name))) (some (.var binder))).value ctx =
      Operator.callMatching ctx name (some (.ofVar binder)) := by
    rw [Expr.value, Expr.query, Option.toList_some, Expr.meaning, Expr.meanings, Expr.meanings,
      Expr.meanings, Expr.meaning, Expr.meaning]
    rfl
  rw [Binder.run_test]
  show (let o := ((Expr.query _ _).value ctx).run bound
    (⟨o.value.map Value.isTrue, ⟨o.state.bindings.tail, o.state.workingSet⟩, o.trace⟩ :
      Outcome _)) = _
  rw [hvalue, hcall]
  rcases ((ctx.queries.matching name).test value).result with e | answer
  · rfl
  · exact congrArg (fun b => (⟨.ok b, _, _⟩ : Outcome (Except QueryError Bool)))
      (Value.isTrue_boolean answer)

/-! ## The three ways -/

namespace MatchDriver

/-- The lambda of the selection has no parameters and looks up no translations but those of the
predicate, so that either driver runs it in the same context. -/
theorem context_eq_of_selection {matcher : MatchDriver} {collector : CollectionDriver}
    {binder : String} (hbody : collector.body = Expr.everything.select ⟨binder, matcher.body⟩)
    (hparameters : collector.parameters = matcher.parameters)
    (hconfig : collector.config = matcher.config) (hsupport : collector.support = matcher.support)
    (queries : Registry) : collector.context queries = matcher.context queries := by
  have hneeds : collector.body.needsTranslations = matcher.body.needsTranslations := by
    rw [hbody]
    rfl
  unfold Prepared.context Prepared.translations
  rw [hneeds, hparameters, hconfig, hsupport]

/-- **Three ways of filtering by a predicate agree**, on every sequence, with failing items
anywhere in it.

* A match driver without a shape, whose predicate cannot read a working set, performs like a
  collection driver that selects by the predicate, with the same parameters, configuration and
  translations.
* A match driver of any shape, with any predicate, performs like a collection driver that calls it
  as a query object on each item.

Each two performances are one reading of the sequence: they have the same result, a list or an
error, and leave the same part of the sequence unread. Their events are the same too, between the
announcements that each driver makes. -/
theorem perform_eq_selection :
    (∀ (matcher : MatchDriver) (collector : CollectionDriver),
        matcher.shape = .any → matcher.body.mentionsWorkingSet = false →
        matcher.check = .ok () →
        collector.body = Expr.everything.select ⟨Expr.thisName, matcher.body⟩ →
        collector.parameters = matcher.parameters → collector.config = matcher.config →
        collector.support = matcher.support →
          ∀ queries input, ∃ reading : Reading (List Value),
            matcher.perform queries input = reading.bracket matcher.setup matcher.teardown ∧
              collector.perform queries input =
                reading.bracket collector.setup collector.teardown) ∧
      ∀ (matcher : MatchDriver) (collector : CollectionDriver) (inner outer : Registry)
        (name binder : String), matcher.check = .ok () →
        outer.matching name = matcher.toQuery inner →
        collector.body = Expr.everything.select
          ⟨binder, .query (.literal (.query (.matching name))) (some (.var binder))⟩ →
          ∀ input, ∃ reading : Reading (List Value),
            matcher.perform inner input = reading.bracket matcher.setup matcher.teardown ∧
              collector.perform outer input =
                reading.bracket collector.setup collector.teardown := by
  refine ⟨?_, ?_⟩
  · intro matcher collector hshape hset hcheck hbody hparameters hconfig hsupport queries input
    refine ⟨input.siftEach (matcher.test queries),
      matcher.perform_eq_bracket_siftEach queries hcheck input, ?_⟩
    have hcheck' : collector.check = .ok () := by
      unfold Prepared.check at hcheck ⊢
      rw [hbody, hparameters]
      exact hcheck
    refine CollectionDriver.perform_eq_bracket_siftEach hbody ?_ hcheck' input
    rw [context_eq_of_selection hbody hparameters hconfig hsupport]
    exact decides_body hcheck hshape hset
  · intro matcher collector inner outer name binder hcheck hquery hbody input
    refine ⟨input.siftEach (matcher.test inner),
      matcher.perform_eq_bracket_siftEach inner hcheck input, ?_⟩
    have hcheck' : collector.check = .ok () := by
      unfold Prepared.check
      rw [hbody]
      rfl
    have htest : (outer.matching name).test = matcher.test inner := by
      rw [hquery]
      rfl
    refine CollectionDriver.perform_eq_bracket_siftEach hbody ?_ hcheck' input
    rw [← htest]
    exact Lambda.decides_query (collector.context outer) name binder

/-- Four candidates are filtered by rank, first by a predicate of no shape and then by one that asks
for units. The third is a unit whose rank is a text, where all performances end. The two selections
are computed as the performances of match drivers that announce nothing. -/
theorem perform_eq_selection_ranks :
    let parameters : Parameters := ⟨[], [("bound", .integer 2)]⟩
    let matcher : MatchDriver := { lowRanks parameters with shape := .any, hooks := none }
    let selecting : CollectionDriver :=
      { body := Expr.everything.select ⟨Expr.thisName, matcher.body⟩, parameters
        hooks := some "all" }
    let called : MatchDriver := { lowRanks parameters with hooks := none }
    let catalog : Catalog := [("low", .matching called)]
    let calling : CollectionDriver :=
      { body := Expr.everything.select
          ⟨"x", .query (.literal (.query (.matching "low"))) (some (.var "x"))⟩
        parameters := .none
        hooks := some "all" }
    let input : Tape := .ofItems [.ok (rankedUnit (.integer 1)), .ok (rankedUnit (.integer 3)),
      .ok (rankedUnit (.string "a")), .ok (rankedUnit (.integer 0))]
    let incomparable : QueryError := .evaluation "<" 1 (.incomparable "string" "integer")
    let reading : Reading (List Value) :=
      ⟨.error incomparable, .ofItems [.ok (rankedUnit (.integer 0))],
        [.reached "all" .setup, .pulled, .pulled, .pulled, .reached "all" .teardown]⟩
    matcher.body.mentionsWorkingSet = false ∧ matcher.check = .ok () ∧
      selecting.perform (Catalog.queries []) input = reading ∧
      called.check = .ok () ∧ calling.perform (catalog.registry 1) input = reading := by
  intro parameters matcher selecting called catalog calling input incomparable reading
  have hset : matcher.body.mentionsWorkingSet = false := by decide
  obtain ⟨hselecting, hcalling⟩ := perform_eq_selection
  obtain ⟨alike, hmatcher, hselecting⟩ :=
    hselecting matcher selecting rfl hset rfl rfl rfl rfl rfl (Catalog.queries []) input
  obtain ⟨alike', hcalled, hcalling⟩ :=
    hcalling called calling (catalog.registry 0) (catalog.registry 1) "low" "x" rfl rfl rfl input
  refine ⟨hset, rfl, ?_, rfl, ?_⟩
  · have hperform : matcher.perform (Catalog.queries []) input = alike :=
      hmatcher.trans alike.bracket_nil
    rw [hselecting, ← hperform]
    rfl
  · have hperform : called.perform (catalog.registry 0) input = alike' :=
      hcalled.trans alike'.bracket_nil
    rw [hcalling, ← hperform]
    rfl

end MatchDriver

end RecordQuery
