import RecordQuery.Proofs.Query.Candidates

/-!
# Traces that nest like brackets

Query objects announce the beginning and the end of what they do: `setup` and `teardown` stand
around the run of a driver, `pre` and `post` around a performance that tests candidates. A trace is
`Trace.Nested` if every announced beginning has its end, of the same name and of the same kind, and
runs lie side by side or one inside the other, never across.

* `Reading.Proper`: a reading makes some pulls, keeps their events in its trace, and nests if the
  pulls do. This is what a query object needs of the objects that it calls.
* `Reading.Bracketed`: the trace of a reading is a setup, then what was made of the input, then a
  teardown.
* `Tape.siftEach_bracketed`: a performance that tests its candidates one by one is bracketed.
-/

namespace RecordQuery

/-! ## Nested traces -/

/-- The phase that ends what a phase begins. -/
def Phase.closing? : Phase → Option Phase
  | .pre => some .post
  | .setup => some .teardown
  | .test | .post | .perform | .teardown => none

/-- Whether an event neither begins nor ends anything. -/
def Event.isPlain : Event → Bool
  | .pulled | .lookup .. | .reached _ .test | .reached _ .perform => true
  | .reached .. => false

namespace Trace

/-- Traces in which all that begins ends, like brackets in a word. -/
inductive Nested : Trace → Prop
  /-- Nothing begins. -/
  | nil : Nested []
  /-- An event that begins nothing. -/
  | plain {event : Event} {rest : Trace} :
      event.isPlain = true → Nested rest → Nested (event :: rest)
  /-- A complete run, and what comes after it. -/
  | run (query : String) {opening closing : Phase} {inner rest : Trace} :
      opening.closing? = some closing → Nested inner → Nested rest →
        Nested (.reached query opening :: (inner ++ .reached query closing :: rest))

/-- A nested trace behind a nested trace is nested: what the first opens, it closes. -/
theorem Nested.append {t u : Trace} (ht : t.Nested) (hu : u.Nested) : (t ++ u).Nested := by
  induction ht with
  | nil => exact hu
  | plain hplain _ ih => exact .plain hplain ih
  | run query hclosing hinner _ _ ih =>
      have hrun := Nested.run query hclosing hinner ih
      simpa using hrun

/-- A complete run. -/
theorem Nested.enclosed {t : Trace} (ht : t.Nested) (query : String) {opening closing : Phase}
    (hclosing : opening.closing? = some closing) :
    Nested ([.reached query opening] ++ t ++ [.reached query closing]) := by
  have hrun := Nested.run query hclosing ht .nil
  simpa using hrun

/-- An event that opens and closes nothing is nested by itself. -/
theorem nested_singleton {event : Event} (h : event.isPlain = true) : Nested [event] :=
  .plain h .nil

end Trace

/-! ## Tapes whose pulls nest -/

namespace Tape

/-- Whether every pull leaves a nested trace. -/
def Nested : Tape → Prop
  | .step trace _ rest => trace.Nested ∧ Nested rest
  | .closing trace => trace.Nested
  | .spent => True

/-- What is left of a nested tape is nested. -/
theorem Nested.drop {tape : Tape} (h : tape.Nested) (n : Nat) : (tape.drop n).Nested := by
  induction n generalizing tape with
  | zero => simpa using h
  | succ n ih =>
      cases tape with
      | step trace item rest => exact ih h.2
      | closing trace => trivial
      | spent => trivial

/-- Pulling on a source opens and closes nothing. -/
theorem nested_ofItems (items : List Item) : (ofItems items).Nested := by
  induction items with
  | nil => trivial
  | cons item rest ih => exact ⟨Trace.nested_singleton rfl, ih⟩

/-- Pulling on values that are at hand leaves no trace at all. -/
theorem nested_ofValues (values : List Value) : (ofValues values).Nested := by
  induction values with
  | nil => trivial
  | cons value rest ih => exact ⟨.nil, ih⟩

/-! ## Testing candidates -/

variable {test : Value → Verdict}

/-- Testing candidates as they are pulled keeps a tape nested, if every test is. -/
theorem Nested.testing {tape : Tape} (h : tape.Nested)
    (htest : ∀ candidate, (test candidate).trace.Nested) (n : Nat) :
    (tape.testing test n).Nested := by
  induction n generalizing tape with
  | zero => exact .nil
  | succ n ih =>
      cases tape with
      | step trace item rest =>
          have htested : (item.tested test).Nested := by
            rcases item with e | value
            · exact .nil
            · exact htest value
          exact (h.1.append htested).append (ih h.2)
      | closing trace => exact h
      | spent => exact .nil

/-- The pulls of a performance are among its events. -/
theorem pulled_sublist_testing (test : Value → Verdict) (n : Nat) (tape : Tape) :
    (tape.pulled n).Sublist (tape.testing test n) := by
  induction n generalizing tape with
  | zero => simp
  | succ n ih =>
      cases tape with
      | step trace item rest =>
          have htrace : trace.Sublist (trace ++ item.tested test) := List.sublist_append_left _ _
          exact htrace.append (ih rest)
      | closing trace => exact List.Sublist.refl trace
      | spent => exact List.Sublist.refl []

/-- A performance makes some pulls, and tests what they bring. -/
theorem exists_siftEach_eq (test : Value → Verdict) (tape : Tape) :
    ∃ n, (tape.siftEach test).rest = tape.drop n ∧
      (tape.siftEach test).trace = tape.testing test n := by
  induction tape with
  | step trace item rest ih =>
      rcases item with e | value
      · refine ⟨1, ?_, ?_⟩
        · simp [siftEach_step_error, drop]
        · simp [siftEach_step_error, testing, Item.tested]
      · rcases hresult : (test value).result with e | passes
        · refine ⟨1, ?_, ?_⟩
          · simp [siftEach_step_refused hresult, drop]
          · simp [siftEach_step_refused hresult, testing, Item.tested]
        · obtain ⟨n, hrest, htrace⟩ := ih
          rw [siftEach_step_ok hresult]
          refine ⟨n + 1, hrest, ?_⟩
          rw [htrace]
          rfl
  | closing trace => exact ⟨1, rfl, rfl⟩
  | spent => exact ⟨0, rfl, rfl⟩

end Tape

/-! ## Readings -/

namespace Reading

variable {α : Type}

/-- A reading that makes pulls on its input, keeps their events, and nests if they do. -/
structure Proper (input : Tape) (reading : Reading α) : Prop where
  /-- Some pulls are made, and their events are in the trace in order. -/
  pulled : ∃ n, reading.rest = input.drop n ∧ (input.pulled n).Sublist reading.trace
  /-- The trace nests if those of the pulls do. -/
  nested : input.Nested → reading.trace.Nested

/-- A reading that makes so many pulls on its input, and whose trace is a setup, then what was made
of the input, then a teardown. -/
structure Bracketed (setup made teardown : Trace) (input : Tape) (pulls : Nat)
    (reading : Reading α) : Prop where
  /-- The setup comes first, the teardown last. -/
  trace : reading.trace = setup ++ made ++ teardown
  /-- What is left is what the pulls leave. -/
  rest : reading.rest = input.drop pulls
  /-- The events of the pulls lie between the setup and the teardown, in order. -/
  pulled : (input.pulled pulls).Sublist made

/-- What is proper becomes bracketed between a setup and a teardown. -/
theorem Proper.exists_bracketed {input : Tape} {reading : Reading α} (h : reading.Proper input)
    (setup teardown : Trace) :
    ∃ pulls, (reading.bracket setup teardown).Bracketed setup reading.trace teardown input
      pulls := by
  obtain ⟨pulls, hrest, hpulled⟩ := h.pulled
  exact ⟨pulls, rfl, hrest, hpulled⟩

/-- A bracketed reading is proper if the whole of it nests. -/
theorem Bracketed.proper {setup made teardown : Trace} {input : Tape} {pulls : Nat}
    {reading : Reading α} (h : reading.Bracketed setup made teardown input pulls)
    (hnested : input.Nested → (setup ++ made ++ teardown).Nested) : reading.Proper input := by
  have hmade : made.Sublist reading.trace := by
    rw [h.trace, List.append_assoc]
    exact (List.sublist_append_left made teardown).trans (List.sublist_append_right setup _)
  refine ⟨⟨pulls, h.rest, h.pulled.trans hmade⟩, fun hinput => ?_⟩
  rw [h.trace]
  exact hnested hinput

end Reading

/-- **A performance that tests its candidates one by one is bracketed**, between whatever setup and
teardown it is put. -/
theorem Tape.siftEach_bracketed (test : Value → Verdict) (setup teardown : Trace) (input : Tape) :
    ∃ pulls, ((input.siftEach test).bracket setup teardown).Bracketed setup
      (input.testing test pulls) teardown input pulls := by
  obtain ⟨pulls, hrest, htrace⟩ := input.exists_siftEach_eq test
  refine ⟨pulls, ?_, hrest, input.pulled_sublist_testing test pulls⟩
  rw [← htrace]
  rfl

end RecordQuery
