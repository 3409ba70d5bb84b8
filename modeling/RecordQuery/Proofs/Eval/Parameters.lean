import RecordQuery.Driver.Compile
import RecordQuery.Proofs.Driver.Brackets
import RecordQuery.Proofs.Eval.Blame
import RecordQuery.Proofs.Eval.Contexts
import RecordQuery.Session

/-!
# What the check of parameters decides

Parameters are checked against a query before it runs. The check looks at the tree; a run comes to
the parameters of the tree one by one, in the bodies of lambdas too, and long after a sequence was
opened.

* `Expr.carries_or_raises_of_check`: after a check that succeeds, a run finds every parameter that
  it comes to.
* `Expr.meaning_eq_of_parameterRefs` says that a run sees no parameters but those that the check looks
  at.
* **Main statement** (`Parameters.check_decides`): both of these, and what becomes of a check that
  fails, in sessions, in compiled queries and in drivers.
-/

namespace RecordQuery

/-! ## Parameters that suffice -/

/-- A check that succeeds is sound: in a context with these parameters, an error of configuration
comes with an item or from a query object. -/
theorem Expr.carries_or_raises_of_check {ctx : Context} {e : Expr}
    (hcheck : ctx.parameters.check e = .ok ()) {state : State} {error : QueryError}
    (h : e.FailsWith ctx state error) (hkind : error.kind = .configuration) :
    state.Carries error ∨ ctx.queries.Raises error := by
  have hcause : e.Blames ctx.parameters [] error ∨ _ :=
    e.blames_of_failsWith (List.forall_mem_nil _) h
  refine hcause.resolve_left fun hblames => ?_
  obtain ⟨ref, -, hmem, hnone⟩ := hblames.parameter_mem_walk hkind
  have hsome := Parameters.check_eq_ok_iff.mp hcheck ref (mem_parameterRefs.mpr hmem)
  rw [hnone] at hsome
  cases hsome

/-! ## Parameters that do not suffice -/

namespace Parameters

variable {params : Parameters} {body : Expr}

/-- A query text that compiles to the body fails with the error of the check. -/
theorem prepare_of_check_eq_error {e : QueryError} (hcheck : params.check body = .error e)
    {compiler : Compiler} {query : String} (hcompile : compiler query = .ok body) :
    compiler.prepare query params = .error (.query e) := by
  unfold Compiler.prepare
  rw [hcompile]
  show ((params.check body).mapError DriverError.query >>= fun _ => _) = _
  rw [hcheck]
  rfl

/-- **The check decides what a run can see of the parameters.**

* If it succeeds, no run of the body in a context with these parameters has an error of
  configuration, unless an item carries it or query objects cause it: not when a value is computed,
  not when a sequence is opened, and not on any pull later.
* Whether it succeeds or not, parameters that have the same values for all references of the body
  give the body the same meaning in contexts that are otherwise the same.
* If it fails, its error names the first parameter of the body, parents first, that has no value. A
  session keeps the parameters it has, a compiled query and the test of a candidate fail with that
  error, and so do performances, without pulling anything and without any event. -/
theorem check_decides (params : Parameters) (body : Expr) :
    (params.check body = .ok () → ∀ ctx : Context, ctx.parameters = params → ∀ state error,
        body.FailsWith ctx state error → error.kind = .configuration →
          state.Carries error ∨ ctx.queries.Causes error fun queries =>
            body.FailsWith { ctx with queries } state error) ∧
      (∀ params' : Parameters, (∀ ref ∈ body.parameterRefs, params'.get? ref = params.get? ref) →
        ∀ ctx : Context, body.meaning (ctx.withParameters params') =
          body.meaning (ctx.withParameters params)) ∧
      ∀ e, params.check body = .error e →
        (∃ before missing after, body.walk = before ++ .parameter missing :: after ∧
            (∀ ref, .parameter ref ∈ before → (params.get? ref).isSome) ∧
            params.get? missing = Option.none ∧ e = .parameterMissing missing params.size) ∧
          (∀ session : Session, session.bind params body = (.error e, session)) ∧
          (∀ (compiler : Compiler) (query : String), compiler query = .ok body →
            compiler.prepare query params = .error (.query e)) ∧
          (∀ driver : MatchDriver, driver.body = body → driver.parameters = params →
            ∀ queries, (∀ input, driver.perform queries input = ⟨.error e, input, []⟩) ∧
              ∀ candidate, driver.test queries candidate = ⟨.error e, []⟩) ∧
          ∀ driver : CollectionDriver, driver.body = body → driver.parameters = params →
            ∀ queries input, driver.perform queries input = ⟨.error e, input, []⟩ := by
  refine ⟨?_, ?_, fun e hcheck => ⟨exists_missing_of_check_eq_error hcheck, ?_, ?_, ?_, ?_⟩⟩
  · rintro hcheck ctx rfl state error hfails hkind
    refine Registry.or_causes_of_raises (fun queries hfails => ?_) hfails
    exact @Expr.carries_or_raises_of_check { ctx with queries } body hcheck state error hfails hkind
  · intro params' hsame ctx
    exact @Expr.meaning_eq_of_parameterRefs (ctx.withParameters params) params' body hsame
  · intro session
    unfold Session.bind
    rw [hcheck]
  · exact fun compiler query hcompile => prepare_of_check_eq_error hcheck hcompile
  · rintro driver rfl rfl queries
    exact ⟨driver.perform_eq_of_check_eq_error queries hcheck,
      driver.test_eq_of_check_eq_error hcheck⟩
  · rintro driver rfl rfl queries input
    exact driver.perform_eq_of_check_eq_error queries hcheck input

/-- A selection by a parameter. With its value, an error of configuration comes with an item, and a
value that no reference asks for makes no difference; without it nothing runs. -/
theorem check_decides_selection :
    let body := Expr.everything.select ⟨"x", .call .less [.var "x", .parameter (.named "bound")]⟩
    let params : Parameters := ⟨[], [("bound", .integer 2)]⟩
    let ctx : Context := ⟨params, Option.none, Catalog.queries []⟩
    let error : QueryError := .parameterMissing (.index 0) 0
    let missing : QueryError := .parameterMissing (.named "bound") 0
    let items : List Item := [.ok (.integer 1), .error error]
    let state : State := ⟨[], .available (.ofItems items)⟩
    let compiler : Compiler := .ofList [("small", body)]
    params.check body = .ok () ∧ body.FailsWith ctx state error ∧
      (state.Carries error ∨ ctx.queries.Causes error fun queries =>
        body.FailsWith { ctx with queries } state error) ∧
      body.meaning (ctx.withParameters ⟨[.integer 9], [("bound", .integer 2)]⟩) =
        body.meaning (ctx.withParameters params) ∧
      compiler.prepare "small" .none = .error (.query missing) ∧
      CollectionDriver.perform { body, parameters := .none, hooks := some "small" }
          (Catalog.queries []) (.ofItems items) = ⟨.error missing, .ofItems items, []⟩ := by
  intro body params ctx error missing items state compiler
  have hcheck : params.check body = .ok () := rfl
  have hfails : body.FailsWith ctx state error := .collect rfl
  obtain ⟨hruns, hsees, -⟩ := check_decides params body
  obtain ⟨-, -, hrefuses⟩ := check_decides .none body
  obtain ⟨-, -, hprepare, -, hperform⟩ := hrefuses missing rfl
  refine ⟨hcheck, hfails, hruns hcheck ctx rfl state error hfails rfl, ?_,
    hprepare compiler "small" rfl, hperform _ rfl rfl _ _⟩
  refine hsees ⟨[.integer 9], [("bound", .integer 2)]⟩ (fun ref href => ?_) ctx
  obtain rfl : ref = .named "bound" := List.mem_singleton.mp href
  rfl

end Parameters

end RecordQuery
