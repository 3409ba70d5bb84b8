import RecordQuery.Driver.Collection
import RecordQuery.Proofs.Driver.Match
import RecordQuery.Proofs.Eval.Nesting

/-!
# Drivers run between their setup and their teardown

* `MatchDriver.perform_bracketed`: a match driver with sufficient parameters announces its setup,
  pulls and tests candidates, and announces its teardown, wherever the performance ends.
* `CollectionDriver.perform_bracketed`: so does a collection driver, with a run of its body in
  between. The body may call query objects, which are proper.
* `MatchQuery.ofTest_perform_bracketed`: so does a query that a test makes.
* `MatchDriver.test_nested` and `CollectionDriver.perform_proper`: drivers over proper query objects
  are proper themselves.
-/

namespace RecordQuery

/-! ## Queries that a test makes -/

/-- **A query that a test makes performs between its setup and its teardown.** -/
theorem MatchQuery.ofTest_perform_bracketed (setup : Trace) (test : Value → Verdict)
    (teardown : Trace) (input : Tape) :
    ∃ pulls, ((MatchQuery.ofTest setup test teardown).perform input).Bracketed setup
      (input.testing test pulls) teardown input pulls :=
  input.siftEach_bracketed test setup teardown

/-! ## Announcements -/

/-- The announcements of a driver make a complete run of what lies between them; a driver that is
not announced adds nothing. -/
theorem Prepared.nested_bracket (query : Prepared) {t : Trace} (ht : t.Nested) :
    (query.setup ++ t ++ query.teardown).Nested := by
  unfold setup teardown
  rcases query.hooks with _ | name
  · simpa using ht
  · exact ht.enclosed name rfl

/-! ## Match drivers -/

namespace MatchDriver

variable (driver : MatchDriver) {queries : Registry}

/-- A driver whose parameters do not suffice fails about any candidate, and leaves no event. -/
theorem test_eq_of_check_eq_error {e : QueryError} (hcheck : driver.check = .error e)
    (candidate : Value) : driver.test queries candidate = ⟨.error e, []⟩ := by
  unfold test
  rw [hcheck]

/-- Testing a candidate announces nothing but complete runs. -/
theorem test_nested (hqueries : queries.Proper) (candidate : Value) :
    (driver.test queries candidate).trace.Nested := by
  rcases hcheck : driver.check with e | _
  · rw [driver.test_eq_of_check_eq_error hcheck]
    exact .nil
  · have hreads := driver.accepts_obeys queries hqueries.nesting candidate .initial
    have hnested := hreads.nested trivial
    unfold test
    rw [hcheck]
    exact hnested

/-- **A match driver performs between its setup and its teardown.** -/
theorem perform_bracketed (queries : Registry) (hcheck : driver.check = .ok ()) (input : Tape) :
    ∃ pulls, (driver.perform queries input).Bracketed driver.setup
      (input.testing (driver.test queries) pulls) driver.teardown input pulls := by
  rw [driver.perform_eq_bracket_siftEach queries hcheck]
  exact input.siftEach_bracketed (driver.test queries) driver.setup driver.teardown

end MatchDriver

/-! ## Collection drivers -/

namespace CollectionDriver

variable (driver : CollectionDriver) {queries : Registry}

/-- The run of the body over a sequence, without announcements. -/
def reading (queries : Registry) (input : Tape) : Reading (List Value) :=
  let o := (driver.body.source (driver.context queries)).collect.run ⟨[], .available input⟩
  ⟨o.value, o.state.remaining, o.trace⟩

/-- A performance is a run of the body between the announcements, if the parameters suffice. -/
theorem perform_eq_bracket_reading (queries : Registry) (hcheck : driver.check = .ok ())
    (input : Tape) :
    driver.perform queries input =
      (driver.reading queries input).bracket driver.setup driver.teardown := by
  unfold perform
  rw [hcheck]
  rfl

/-- Without its parameters a collection driver pulls nothing and leaves no event. -/
theorem perform_eq_of_check_eq_error (queries : Registry) {e : QueryError}
    (hcheck : driver.check = .error e) (input : Tape) :
    driver.perform queries input = ⟨.error e, input, []⟩ := by
  unfold perform
  rw [hcheck]

/-- The body reads the sequence properly. -/
theorem reading_proper (hqueries : queries.Proper) (input : Tape) :
    (driver.reading queries input).Proper input := by
  have hbody : Source.Obeys hqueries.nesting (driver.body.source (driver.context queries)) :=
    @Expr.source_obeys (driver.context queries) hqueries.nesting driver.body
  have hreads := hbody.collect ⟨[], .available input⟩
  exact ⟨hreads.pulled, hreads.nested⟩

/-- **A collection driver performs between its setup and its teardown.** -/
theorem perform_bracketed (hqueries : queries.Proper) (hcheck : driver.check = .ok ())
    (input : Tape) :
    ∃ pulls, (driver.perform queries input).Bracketed driver.setup
      (driver.reading queries input).trace driver.teardown input pulls := by
  rw [driver.perform_eq_bracket_reading queries hcheck]
  exact (driver.reading_proper hqueries input).exists_bracketed driver.setup driver.teardown

/-- A collection driver over proper query objects is proper. -/
theorem perform_proper (hqueries : queries.Proper) (input : Tape) :
    (driver.perform queries input).Proper input := by
  rcases hcheck : driver.check with e | _
  · rw [driver.perform_eq_of_check_eq_error queries hcheck]
    exact ⟨⟨0, (input.drop_zero).symm, by simp⟩, fun _ => .nil⟩
  · obtain ⟨pulls, hbracketed⟩ := driver.perform_bracketed hqueries hcheck input
    refine hbracketed.proper fun hinput => ?_
    exact driver.nested_bracket ((driver.reading_proper hqueries input).nested hinput)

end CollectionDriver

end RecordQuery
