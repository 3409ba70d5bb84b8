import RecordQuery.Proofs.Query.Tape
import RecordQuery.Query.Object

/-!
# Testing the candidates of a sequence

What a performance over a sequence comes to, told from the test of single candidates: up to the
first position where an item is a failure or a test fails (`FirstFailure`), candidates are pulled
and tested one by one, and that failure is the result; without such a position the result is the
list of the candidates that pass.

* `Tape.sift_eq_of_firstFailure` and `Tape.sift_eq_of_forall`: the two cases, each with what is left
  of the sequence and with the whole trace.
* `Tape.sift_eq_siftEach`: a test whose state never changes might as well have none.
-/

namespace RecordQuery

/-! ## Single candidates -/

namespace Item

/-- Why a performance ends at an item: the item is a failure, or its test fails. -/
def failure? (test : Value → Verdict) : Item → Option QueryError
  | .error e => some e
  | .ok value =>
    match (test value).result with
    | .error e => some e
    | .ok _ => none

/-- The candidate that an item is, if it passes the test. -/
def passing? (test : Value → Verdict) : Item → Option Value
  | .error _ => none
  | .ok value =>
    match (test value).result with
    | .ok true => some value
    | _ => none

/-- The events of testing an item; a failing item is not tested. -/
def tested (test : Value → Verdict) : Item → Trace
  | .error _ => []
  | .ok value => (test value).trace

end Item

/-- The first position at which a performance over items ends, and the error it ends with. -/
structure FirstFailure (test : Value → Verdict) (items : List Item) (position : Nat)
    (e : QueryError) : Prop where
  /-- The item at the position is or causes the failure. -/
  here : ∃ item, items[position]? = some item ∧ Item.failure? test item = some e
  /-- No item before it does. -/
  before : ∀ item ∈ items.take position, Item.failure? test item = none

/-- A failure behind the first item is the first failure of the rest, and the first item has none.
-/
theorem FirstFailure.of_cons_succ {test : Value → Verdict} {item : Item} {rest : List Item}
    {position : Nat} {e : QueryError} (h : FirstFailure test (item :: rest) (position + 1) e) :
    Item.failure? test item = none ∧ FirstFailure test rest position e := by
  have hbefore := h.before
  rw [List.take_succ_cons, List.forall_mem_cons] at hbefore
  exact ⟨hbefore.1, h.here, hbefore.2⟩

/-- Either some item ends a performance first, or none does. -/
theorem FirstFailure.exists_or_forall (test : Value → Verdict) (items : List Item) :
    (∃ position e, FirstFailure test items position e) ∨
      ∀ item ∈ items, Item.failure? test item = none := by
  induction items with
  | nil => exact .inr (List.forall_mem_nil _)
  | cons item rest ih =>
      rcases hitem : Item.failure? test item with _ | e
      · obtain ⟨position, e, hrest⟩ | hnone := ih
        · left
          refine ⟨position + 1, e, hrest.here, ?_⟩
          rw [List.take_succ_cons, List.forall_mem_cons]
          exact ⟨hitem, hrest.before⟩
        · right
          rw [List.forall_mem_cons]
          exact ⟨hitem, hnone⟩
      · left
        exact ⟨0, e, ⟨item, rfl, hitem⟩, List.forall_mem_nil _⟩

namespace Tape

/-! ## Performances -/

/-- The trace of pulling so many times and testing each candidate when it is pulled. -/
def testing (test : Value → Verdict) : Nat → Tape → Trace
  | 0, _ => []
  | n + 1, .step trace item rest => trace ++ item.tested test ++ testing test n rest
  | _ + 1, .closing trace => trace
  | _ + 1, .spent => []

/-- A performance that tests each candidate on its own. -/
def siftEach (test : Value → Verdict) (tape : Tape) : Reading (List Value) :=
  tape.sift (fun _ value => ((test value).result, (), (test value).trace)) ()

/-- A failing item ends the testing with its failure. -/
theorem siftEach_step_error (test : Value → Verdict) (trace : Trace) (e : QueryError)
    (rest : Tape) : siftEach test (.step trace (.error e) rest) = ⟨.error e, rest, trace⟩ := rfl

/-- A candidate whose test fails ends the testing with the failure of the test. -/
theorem siftEach_step_refused {test : Value → Verdict} {value : Value} {e : QueryError}
    (h : (test value).result = .error e) (trace : Trace) (rest : Tape) :
    siftEach test (.step trace (.ok value) rest) =
      ⟨.error e, rest, trace ++ (test value).trace⟩ := by
  unfold siftEach
  rw [sift, h]

/-- A candidate whose test succeeds is kept or not, and the testing goes on. -/
theorem siftEach_step_ok {test : Value → Verdict} {value : Value} {passes : Bool}
    (h : (test value).result = .ok passes) (trace : Trace) (rest : Tape) :
    siftEach test (.step trace (.ok value) rest) =
      ⟨if passes then (value :: ·) <$> (siftEach test rest).result else (siftEach test rest).result,
        (siftEach test rest).rest, trace ++ (test value).trace ++ (siftEach test rest).trace⟩ := by
  unfold siftEach
  rw [sift, h]

/-- A test that leaves its state as it was tests each candidate on its own. -/
theorem sift_eq_siftEach {σ : Type} {step : σ → Value → Except QueryError Bool × σ × Trace}
    {state : σ} {test : Value → Verdict}
    (h : ∀ value, step state value = ((test value).result, state, (test value).trace))
    (tape : Tape) : tape.sift step state = tape.siftEach test := by
  induction tape with
  | step trace item rest ih =>
      rcases item with e | value
      · rfl
      · rcases hresult : (test value).result with e | passes
        · rw [siftEach_step_refused hresult, sift, h, hresult]
        · rw [siftEach_step_ok hresult, sift, h, hresult, ← ih]
  | closing trace => rfl
  | spent => rfl

/-- **A failure ends the performance**: it is the result, and nothing is pulled beyond it. -/
theorem sift_eq_of_firstFailure {test : Value → Verdict} {tape : Tape} {position : Nat}
    {e : QueryError} (h : FirstFailure test tape.items position e) :
    tape.siftEach test =
      ⟨.error e, tape.drop (position + 1), tape.testing test (position + 1)⟩ := by
  induction tape generalizing position with
  | step trace item rest ih =>
      rcases position with _ | position
      · obtain ⟨found, hfound, hfailure⟩ := h.here
        obtain rfl : item = found := Option.some.inj hfound
        rcases item with e' | value
        · obtain rfl : e' = e := Option.some.inj hfailure
          simp [siftEach_step_error, drop, testing, Item.tested]
        · rcases hresult : (test value).result with e' | passes
          · simp only [Item.failure?, hresult] at hfailure
            obtain rfl : e' = e := Option.some.inj hfailure
            simp [siftEach_step_refused hresult, drop, testing, Item.tested]
          · simp [Item.failure?, hresult] at hfailure
      · obtain ⟨hpassed, hrest⟩ := h.of_cons_succ
        rcases item with e' | value
        · cases hpassed
        · rcases hresult : (test value).result with e' | passes
          · simp [Item.failure?, hresult] at hpassed
          · rw [siftEach_step_ok hresult, ih hrest]
            cases passes <;> rfl
  | closing trace =>
      obtain ⟨found, hfound, -⟩ := h.here
      cases hfound
  | spent =>
      obtain ⟨found, hfound, -⟩ := h.here
      cases hfound

/-- **Without a failure the sequence is read to its end**, and the result is the list of the
candidates that pass, in order. -/
theorem sift_eq_of_forall {test : Value → Verdict} {tape : Tape}
    (h : ∀ item ∈ tape.items, Item.failure? test item = none) :
    tape.siftEach test =
      ⟨.ok (tape.items.filterMap (Item.passing? test)), .spent, tape.testing test tape.length⟩ := by
  induction tape with
  | step trace item rest ih =>
      have hitem : Item.failure? test item = none := h item List.mem_cons_self
      have hrest := ih fun item hi => h item (List.mem_cons_of_mem _ hi)
      rcases item with e | value
      · cases hitem
      · rcases hresult : (test value).result with e | passes
        · simp [Item.failure?, hresult] at hitem
        · rw [siftEach_step_ok hresult, hrest]
          have hpassing : Item.passing? test (.ok value) = if passes then some value else none := by
            cases passes <;> simp [Item.passing?, hresult]
          have htrace : testing test (rest.length + 1) (.step trace (.ok value) rest) =
              trace ++ (test value).trace ++ testing test rest.length rest := rfl
          rw [items, length, List.filterMap_cons, hpassing, htrace]
          cases passes <;> rfl
  | closing trace => rfl
  | spent => rfl

/-- A performance ends in an error only if an item is that failure, or the test of a candidate
fails with it. -/
theorem mem_items_or_test_of_siftEach_eq_error {test : Value → Verdict} {tape : Tape}
    {e : QueryError} (h : (tape.siftEach test).result = .error e) :
    .error e ∈ tape.items ∨ ∃ candidate, (test candidate).result = .error e := by
  obtain ⟨position, e', hfirst⟩ | hnone := FirstFailure.exists_or_forall test tape.items
  · rw [sift_eq_of_firstFailure hfirst] at h
    obtain rfl : e' = e := Except.error.inj h
    obtain ⟨item, hitem, hfailure⟩ := hfirst.here
    rcases item with e | value
    · obtain rfl : e = e' := Option.some.inj hfailure
      exact .inl (List.mem_of_getElem? hitem)
    · rcases hresult : (test value).result with e | passes
      · simp only [Item.failure?, hresult] at hfailure
        obtain rfl : e = e' := Option.some.inj hfailure
        exact .inr ⟨value, hresult⟩
      · simp [Item.failure?, hresult] at hfailure
  · rw [sift_eq_of_forall hnone] at h
    cases h

/-- A performance over values at hand, the test of each of which has an answer: the result is the
list of the values with the answer yes. -/
theorem result_siftEach_ofValues {test : Value → Verdict} {answer : Value → Bool}
    {values : List Value} (h : ∀ value ∈ values, (test value).result = .ok (answer value)) :
    ((ofValues values).siftEach test).result = .ok (values.filter answer) := by
  induction values with
  | nil => rfl
  | cons value rest ih =>
      have hvalue := h value List.mem_cons_self
      have hrest := ih fun value hmem => h value (List.mem_cons_of_mem _ hmem)
      have htape : ofValues (value :: rest) = .step [] (.ok value) (ofValues rest) := rfl
      rw [htape, siftEach_step_ok hvalue]
      dsimp only
      rw [hrest, List.filter_cons]
      rcases answer value <;> rfl

end Tape

end RecordQuery
