import RecordQuery.Proofs.Driver.Brackets
import RecordQuery.Proofs.Eval.Blame

/-!
# Well-scoped queries

Sequences are pulled on when the run that opened them has gone on, so a lambda may run long after
the node that it belongs to was reached. It runs nevertheless with the bindings of its scope: those
that its own application makes, and those that the whole query was started with.

* `Expr.carries_or_raises_of_isScoped`: a tree that is well scoped never comes to a variable that
  has no binding.
* `MatchDriver.raises_of_isScoped`, `MatchDriver.mem_items_or_raises_of_isScoped` and
  `CollectionDriver.mem_items_or_raises_of_isScoped`: nor does a driver, whose candidate is `this`
  or which starts without any binding.
* **Main statement** (`Expr.never_unbound_of_isScoped`): all of these.
-/

namespace RecordQuery

/-! ## Expressions -/

/-- **A tree that is well scoped finds its variables**: where the variables of the scope have
bindings, an error of an unbound variable comes with an item or from a query object. -/
theorem Expr.carries_or_raises_of_isScoped {ctx : Context} {e : Expr} {scope : List String}
    (he : e.isScoped scope = true) {state : State}
    (hscope : ∀ name ∈ scope, (Named.lookup name state.bindings).isSome) {error : QueryError}
    (h : e.FailsWith ctx state error) (hkind : error.kind = .unboundVariable) :
    state.Carries error ∨ ctx.queries.Raises error :=
  (e.blames_of_failsWith hscope h).resolve_left fun hblames => hblames.kind_ne_of_isScoped he hkind

/-! ## Drivers -/

/-- Parameters that do not suffice are not reported as an unbound variable. -/
theorem Prepared.kind_ne_of_check_eq_error {query : Prepared} {e : QueryError}
    (h : query.check = .error e) : e.kind ≠ .unboundVariable := by
  rw [Parameters.kind_of_check_eq_error h]
  rintro ⟨⟩

namespace MatchDriver

variable {driver : MatchDriver} (hbody : driver.body.isScoped [Expr.thisName] = true)
  {queries : Registry} {error : QueryError} (hkind : error.kind = .unboundVariable)

include hbody hkind

/-- Testing a candidate binds it to `this`, so that no variable is missing. -/
theorem raises_of_isScoped {candidate : Value}
    (h : (driver.test queries candidate).result = .error error) : queries.Raises error := by
  rcases hcheck : driver.check with e | _
  · rw [driver.test_eq_of_check_eq_error hcheck] at h
    obtain rfl : e = error := Except.error.inj h
    exact absurd hkind (Prepared.kind_ne_of_check_eq_error hcheck)
  · rcases hshape : driver.shape.accepts candidate with _ | _
    · rw [driver.test_eq_of_not_accepts queries hcheck hshape] at h
      cases h
    · rw [driver.test_eq_of_accepts queries hcheck hshape] at h
      have hfails : driver.body.FailsWith (driver.context queries)
        ⟨[(Expr.thisName, candidate)], .unset⟩ error := .isTrue h
      have hthis : ∀ name ∈ [Expr.thisName],
          (Named.lookup name [(Expr.thisName, candidate)]).isSome := by
        rw [List.forall_mem_singleton]
        rfl
      -- there is no working set whose items could carry the error
      have hcause := Expr.carries_or_raises_of_isScoped hbody hthis hfails hkind
      exact hcause.resolve_left List.not_mem_nil

/-- A performance brings up no more than the test of a candidate does. -/
theorem mem_items_or_raises_of_isScoped {input : Tape}
    (h : (driver.perform queries input).result = .error error) :
    .error error ∈ input.items ∨ queries.Raises error := by
  rcases hcheck : driver.check with e | _
  · rw [driver.perform_eq_of_check_eq_error queries hcheck] at h
    obtain rfl : e = error := Except.error.inj h
    exact absurd hkind (Prepared.kind_ne_of_check_eq_error hcheck)
  · rw [driver.perform_eq_bracket_siftEach queries hcheck] at h
    refine (Tape.mem_items_or_test_of_siftEach_eq_error h).imp_right ?_
    rintro ⟨candidate, htest⟩
    exact raises_of_isScoped hbody hkind htest

end MatchDriver

/-- A collection driver starts without any binding. -/
theorem CollectionDriver.mem_items_or_raises_of_isScoped {driver : CollectionDriver}
    (hbody : driver.body.isScoped [] = true) {queries : Registry} {error : QueryError}
    (hkind : error.kind = .unboundVariable) {input : Tape}
    (h : (driver.perform queries input).result = .error error) :
    .error error ∈ input.items ∨ queries.Raises error := by
  rcases hcheck : driver.check with e | _
  · rw [driver.perform_eq_of_check_eq_error queries hcheck] at h
    obtain rfl : e = error := Except.error.inj h
    exact absurd hkind (Prepared.kind_ne_of_check_eq_error hcheck)
  · rw [driver.perform_eq_bracket_reading queries hcheck] at h
    exact Expr.carries_or_raises_of_isScoped hbody (List.forall_mem_nil _) (.collect h) hkind

/-! ## All of them -/

/-- **Well-scoped queries never come to an unbound variable.** Where the variables of a scope have
bindings, no run of a tree that is well scoped for it, and no pull later on, ends in an error of an
unbound variable, unless an item carries it or query objects cause it. So a match driver whose
predicate is well scoped for `this`, and a collection driver whose body is well scoped for no
variables, never report one, except for what an item carries or query objects cause. -/
theorem Expr.never_unbound_of_isScoped :
    (∀ (e : Expr) (scope : List String), e.isScoped scope = true →
        ∀ (ctx : Context) (state : State),
          (∀ name ∈ scope, (Named.lookup name state.bindings).isSome) →
            ∀ error, e.FailsWith ctx state error → error.kind = .unboundVariable →
              state.Carries error ∨ ctx.queries.Causes error fun queries =>
                e.FailsWith { ctx with queries } state error) ∧
      (∀ driver : MatchDriver, driver.body.isScoped [thisName] = true →
        ∀ (queries : Registry) (error : QueryError), error.kind = .unboundVariable →
          (∀ candidate, (driver.test queries candidate).result = .error error →
              queries.Causes error fun queries =>
                (driver.test queries candidate).result = .error error) ∧
            ∀ input, (driver.perform queries input).result = .error error →
              .error error ∈ input.items ∨ queries.Causes error fun queries =>
                (driver.perform queries input).result = .error error) ∧
      ∀ driver : CollectionDriver, driver.body.isScoped [] = true →
        ∀ (queries : Registry) (error : QueryError), error.kind = .unboundVariable →
          ∀ input, (driver.perform queries input).result = .error error →
            .error error ∈ input.items ∨ queries.Causes error fun queries =>
              (driver.perform queries input).result = .error error := by
  refine ⟨?_, ?_, ?_⟩
  · intro e scope he ctx state hscope error hfails hkind
    refine Registry.or_causes_of_raises (fun queries hfails => ?_) hfails
    exact carries_or_raises_of_isScoped he hscope hfails hkind
  · intro driver hbody queries error hkind
    refine ⟨fun candidate htest => ?_, fun input hperform => ?_⟩
    · -- a test has no items that could carry the error
      refine Or.resolve_left (Registry.or_causes_of_raises (P := False) (fun queries htest => ?_)
        htest) id
      exact .inr (MatchDriver.raises_of_isScoped hbody hkind htest)
    · refine Registry.or_causes_of_raises (fun queries hperform => ?_) hperform
      exact MatchDriver.mem_items_or_raises_of_isScoped hbody hkind hperform
  · intro driver hbody queries error hkind input hperform
    refine Registry.or_causes_of_raises (fun queries hperform => ?_) hperform
    exact CollectionDriver.mem_items_or_raises_of_isScoped hbody hkind hperform

/-- An error of an unbound variable where none is unbound: in the first two runs a query object
brings it up, and in the third it comes with an item. -/
theorem Expr.never_unbound_of_isScoped_lost :
    let lost : QueryError := .variableUnbound "lost"
    let queries : Registry := ⟨fun _ => .ofTest [] (fun _ => ⟨.error lost, []⟩) [],
      fun _ => .passing [] some⟩
    let body : Expr := .query (.literal (.query (.matching "q"))) none
    let state : State := ⟨[(thisName, .integer 1)], .unset⟩
    let matcher : MatchDriver := { body, parameters := .none }
    let collector : CollectionDriver :=
      { body := everything.select ⟨"x", .var "x"⟩, parameters := .none }
    let input : Tape := .ofItems [.ok (.integer 1), .error lost]
    body.isScoped [thisName] = true ∧ body.FailsWith ⟨.none, none, queries⟩ state lost ∧
      (queries.Causes lost fun queries => body.FailsWith ⟨.none, none, queries⟩ state lost) ∧
      (matcher.test queries (.integer 1)).result = .error lost ∧
      (queries.Causes lost fun queries =>
        (matcher.test queries (.integer 1)).result = .error lost) ∧
      collector.body.isScoped [] = true ∧
      (collector.perform queries input).result = .error lost ∧
      (.error lost ∈ input.items ∨ queries.Causes lost fun queries =>
        (collector.perform queries input).result = .error lost) := by
  intro lost queries body state matcher collector input
  have hbody : body.isScoped [thisName] = true := by decide
  have hfails : body.FailsWith ⟨.none, none, queries⟩ state lost := .value rfl
  have hthis : ∀ name ∈ [thisName], (Named.lookup name state.bindings).isSome := by
    rw [List.forall_mem_singleton]
    rfl
  have htest : (matcher.test queries (.integer 1)).result = .error lost := rfl
  have hscoped : collector.body.isScoped [] = true := by decide
  have hperform : (collector.perform queries input).result = .error lost := rfl
  obtain ⟨hexpr, hmatcher, hcollector⟩ := never_unbound_of_isScoped
  -- the state has no working set, and so no item that could carry the error
  have hcauses := (hexpr body [thisName] hbody ⟨.none, none, queries⟩ state hthis lost hfails
    rfl).resolve_left List.not_mem_nil
  exact ⟨hbody, hfails, hcauses, htest, (hmatcher matcher hbody queries lost rfl).1 _ htest, hscoped,
    hperform, hcollector collector hscoped queries lost rfl input hperform⟩

/-- A filter within the lambda of a filter, over the property of an outer variable. -/
example : (Expr.everything.select ⟨"x", .call .exists
    [.filterBy .reject (.member (.var "x") "parts") "y" (.call .equals [.var "x", .var "y"]),
      .lambda "x" (.var "x")]⟩).isScoped [] = true := by decide

end RecordQuery
