import RecordQuery.Catalog
import RecordQuery.Proofs.Eval.Progress
import RecordQuery.Proofs.Query.Candidates

/-!
# A performance and its candidates, one by one

A match driver performs over a sequence in one state that all candidates share, and tests a single
candidate in a fresh one. The difference cannot be observed (`MatchDriver.testNext_initial`): a test
releases every binding that it makes, and a match driver has no working set that a candidate could
take away from the next.

**Main statement** (`MatchDriver.perform_eq_testing_each`): the outcome of a performance, told from
the outcomes of testing its candidates one by one.
-/

namespace RecordQuery

/-- The check of parameters fails with an error of configuration only. -/
theorem Parameters.kind_of_check_eq_error {params : Parameters} {body : Expr} {e : QueryError}
    (h : params.check body = .error e) : e.kind = .configuration := by
  unfold check at h
  split at h
  · obtain rfl := Except.error.inj h
    rfl
  · cases h

namespace MatchDriver

variable (driver : MatchDriver) (queries : Registry)

/-- Testing a candidate is disciplined. -/
theorem accepts_obeys (d : Discipline queries) (candidate : Value) :
    Eval.Obeys d (driver.accepts queries candidate) := by
  unfold accepts
  split
  · have hbody : Eval.Obeys d (driver.body.isTrue (driver.context queries)) :=
      @Expr.isTrue_obeys (driver.context queries) d driver.body
    exact Eval.obeys_withBinding _ _ hbody
  · exact Eval.obeys_pure _

/-- **One state serves all candidates**: a test that starts in the state of a fresh test has its
outcome, and leaves that state for the next candidate. -/
theorem testNext_initial (hcheck : driver.check = .ok ()) (candidate : Value) :
    driver.testNext queries .initial candidate =
      ((driver.test queries candidate).result, .initial,
        (driver.test queries candidate).trace) := by
  have hlater := driver.accepts_obeys queries (State.later queries) candidate .initial
  have hstate := hlater.eq_of_unset rfl
  unfold testNext test
  rw [hcheck]
  simp only [hstate]

/-- A performance with sufficient parameters tests each candidate on its own, between the
announcements of its beginning and its end. -/
theorem perform_eq_bracket_siftEach (hcheck : driver.check = .ok ()) (input : Tape) :
    driver.perform queries input =
      (input.siftEach (driver.test queries)).bracket driver.setup driver.teardown := by
  unfold perform
  rw [hcheck]
  rw [Tape.sift_eq_siftEach (driver.testNext_initial queries hcheck)]

/-- Without its parameters a match driver pulls nothing and leaves no event. -/
theorem perform_eq_of_check_eq_error {e : QueryError} (hcheck : driver.check = .error e)
    (input : Tape) : driver.perform queries input = ⟨.error e, input, []⟩ := by
  unfold perform
  rw [hcheck]

/-- A candidate outside the shape is never shown to the predicate. -/
theorem test_eq_of_not_accepts (hcheck : driver.check = .ok ()) {candidate : Value}
    (h : driver.shape.accepts candidate = false) :
    driver.test queries candidate = ⟨.ok false, []⟩ := by
  unfold test accepts
  rw [hcheck, h]
  rfl

/-- The predicate is shown a candidate of the shape as `this`, the only binding. -/
theorem test_eq_of_accepts (hcheck : driver.check = .ok ()) {candidate : Value}
    (h : driver.shape.accepts candidate = true) :
    driver.test queries candidate =
      let o := (driver.body.isTrue (driver.context queries)).run
        ⟨[(Expr.thisName, candidate)], .unset⟩
      ⟨o.value, o.trace⟩ := by
  unfold test accepts
  rw [hcheck, h]
  rfl

/-- **A performance is what its candidates are, one by one.** If the parameters do not suffice, it
is an error of configuration, nothing is pulled and nothing announced. If they do:

* at the first position where the item is a failure or its own test fails, that error is the result,
  what is left of the sequence is what lies behind that position, and the trace is that of pulling
  and testing up to there, between the announcements;
* if there is no such position, which is the only other case, the result is the list of those
  candidates whose own test is positive, each as often as it occurs and in order, and the whole
  sequence was read;
* a candidate outside the shape does not match, whatever the predicate would do on it. -/
theorem perform_eq_testing_each (input : Tape) :
    (∀ e, driver.check = .error e →
        e.kind = .configuration ∧ driver.perform queries input = ⟨.error e, input, []⟩) ∧
      (driver.check = .ok () →
        ((∃ position e, FirstFailure (driver.test queries) input.items position e) ∨
            ∀ item ∈ input.items, Item.failure? (driver.test queries) item = none) ∧
          (∀ position e, FirstFailure (driver.test queries) input.items position e →
            driver.perform queries input =
              ⟨.error e, input.drop (position + 1),
                driver.setup ++ input.testing (driver.test queries) (position + 1) ++
                  driver.teardown⟩) ∧
          ((∀ item ∈ input.items, Item.failure? (driver.test queries) item = none) →
            driver.perform queries input =
              ⟨.ok (input.items.filterMap (Item.passing? (driver.test queries))), .spent,
                driver.setup ++ input.testing (driver.test queries) input.length ++
                  driver.teardown⟩) ∧
          ∀ candidate, driver.shape.accepts candidate = false →
            driver.test queries candidate = ⟨.ok false, []⟩) := by
  refine ⟨fun e he => ?_, fun hcheck => ⟨?_, fun position e hfirst => ?_, fun hnone => ?_, ?_⟩⟩
  · exact ⟨Parameters.kind_of_check_eq_error he,
      driver.perform_eq_of_check_eq_error queries he input⟩
  · exact FirstFailure.exists_or_forall (driver.test queries) input.items
  · rw [driver.perform_eq_bracket_siftEach queries hcheck, Tape.sift_eq_of_firstFailure hfirst]
    rfl
  · rw [driver.perform_eq_bracket_siftEach queries hcheck, Tape.sift_eq_of_forall hnone]
    rfl
  · exact fun candidate h => driver.test_eq_of_not_accepts queries hcheck h

/-- A query for the units whose rank is below a parameter. -/
def lowRanks (parameters : Parameters) : MatchDriver where
  body := .call .less [Expr.this.member "rank", .parameter (.named "bound")]
  parameters := parameters
  hooks := some "low"
  shape := .kind "unit"

/-- A unit of a rank. -/
def rankedUnit (rank : Value) : Value :=
  .record "unit" [("rank", rank)]

/-- Without its parameter the query fails at once. With it, the third of four candidates is a unit
whose rank is a text, which fails the performance; the candidates before it are a match and one of
another kind. -/
theorem perform_eq_testing_each_ranks :
    let queries := Catalog.queries []
    let driver := lowRanks ⟨[], [("bound", .integer 2)]⟩
    let part : Value := .record "part" []
    let good : List Item := [.ok (rankedUnit (.integer 1)), .ok part]
    let bad : List Item := [.ok (rankedUnit (.string "a")), .ok (rankedUnit (.integer 0))]
    let missing : QueryError := .parameterMissing (.named "bound") 0
    let incomparable : QueryError := .evaluation "<" 1 (.incomparable "string" "integer")
    (missing.kind = .configuration ∧
        (lowRanks .none).perform queries (.ofItems good) = ⟨.error missing, .ofItems good, []⟩) ∧
      driver.perform queries (.ofItems (good ++ bad)) =
        ⟨.error incomparable, .ofItems [.ok (rankedUnit (.integer 0))],
          [.reached "low" .setup, .pulled, .pulled, .pulled, .reached "low" .teardown]⟩ ∧
      driver.perform queries (.ofItems good) =
        ⟨.ok [rankedUnit (.integer 1)], .spent,
          [.reached "low" .setup, .pulled, .pulled, .reached "low" .teardown]⟩ ∧
      driver.test queries part = ⟨.ok false, []⟩ := by
  intro queries driver part good bad missing incomparable
  have hcheck : driver.check = .ok () := rfl
  have hpasses : ∀ item ∈ good, Item.failure? (driver.test queries) item = none := by
    rw [List.forall_mem_cons, List.forall_mem_singleton]
    exact ⟨rfl, rfl⟩
  have hfirst : FirstFailure (driver.test queries) (Tape.ofItems (good ++ bad)).items 2
      incomparable := ⟨⟨_, rfl, rfl⟩, hpasses⟩
  obtain ⟨-, hfails⟩ := driver.perform_eq_testing_each queries (.ofItems (good ++ bad))
  obtain ⟨hrefused, -⟩ := (lowRanks .none).perform_eq_testing_each queries (.ofItems good)
  obtain ⟨-, hreads⟩ := driver.perform_eq_testing_each queries (.ofItems good)
  refine ⟨hrefused missing rfl, ?_, ?_, (hreads hcheck).2.2.2 part (by decide)⟩
  · refine ((hfails hcheck).2.1 2 incomparable hfirst).trans ?_
    rfl
  · refine ((hreads hcheck).2.2.1 hpasses).trans ?_
    rfl

end MatchDriver

end RecordQuery
