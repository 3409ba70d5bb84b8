import RecordQuery.Proofs.Query.Inquiries
import RecordQuery.Proofs.Query.Tape

/-!
# Errors that query objects bring up

A query object can fail by itself, and it can pass on the failure of an item of its input.
`Registry.Raises` is about the first. `Registry.replacing` is the registry whose objects bring up
another error in the place of one, and pass on what they passed on before, so that it can be said of
a failure that query objects cause it (`Registry.Causes`): without their error it would not be.

* `Registry.not_raises_replacing`: no object brings up an error that was replaced.
* `Registry.or_causes_of_raises`: if an error is always brought up by an object unless something
  else holds, then the objects cause it unless that holds.
-/

namespace RecordQuery

/-- The errors that the query objects of a registry bring up by themselves. An error that an object
passes on from a failing item that it was given to come to its answer is not among them. -/
inductive Registry.Raises (queries : Registry) : QueryError → Prop
  /-- The test of a candidate fails. -/
  | test {name : String} {candidate : Value} {e : QueryError}
    (h : ((queries.matching name).test candidate).result = .error e) : Raises queries e
  /-- A streaming object fails to open, with an error that no item carries that it was given. -/
  | opening {name : String} {opening : Inquiry (Except QueryError Unit)} {width : Nat}
    {pull : Exchange → Inquiry (Option Item)} {given : List Item} {e : QueryError}
    (hq : queries.sequence name = .streaming opening width pull)
    (h : opening.Answers given (.error e)) (hgiven : .error e ∉ given) : Raises queries e
  /-- A streaming object answers a pull with a failing item, whose error no item carries that it was
  given for this pull. -/
  | pull {name : String} {opening : Inquiry (Except QueryError Unit)} {width : Nat}
    {pull : Exchange → Inquiry (Option Item)} {exchange : Exchange} {given : List Item}
    {e : QueryError} (hq : queries.sequence name = .streaming opening width pull)
    (h : (pull exchange).Answers given (some (.error e))) (hgiven : .error e ∉ given) :
    Raises queries e
  /-- A collecting object fails with an error that no item of its input carries. -/
  | perform {name : String} {perform : Tape → Reading (List Value)} {input : Tape}
    {e : QueryError} (hq : queries.sequence name = .collecting perform)
    (h : (perform input).result = .error e) (hinput : .error e ∉ input.items) : Raises queries e

/-! ## Other errors in their place -/

/-- Puts another error in the place of one. -/
def QueryError.replace (error other e : QueryError) : QueryError :=
  if e = error then other else e

/-- Whether an item is the failure with an error. -/
def Item.isFailure (error : QueryError) : Item → Bool
  | .error e => e = error
  | .ok _ => false

/-- An item is the failure that is looked for exactly if it is that error. -/
theorem Item.isFailure_iff {error : QueryError} {item : Item} :
    item.isFailure error = true ↔ item = .error error := by
  rcases item with e | value <;> simp [isFailure]

/-- No item is the failure that is looked for if none carries the error. -/
theorem Item.any_isFailure_eq_false {error : QueryError} {items : List Item}
    (h : .error error ∉ items) : items.any (isFailure error) = false := by
  refine Bool.eq_false_iff.mpr fun hany => ?_
  obtain ⟨item, hmem, hfailure⟩ := List.any_eq_true.mp hany
  exact h (isFailure_iff.mp hfailure ▸ hmem)

/-- An error that was replaced is gone. -/
theorem QueryError.mapError_replace_ne {α : Type} {error other : QueryError} (h : other ≠ error)
    (result : Except QueryError α) : result.mapError (replace error other) ≠ .error error := by
  rcases result with e | a
  · intro heq
    have hreplaced : replace error other e = error := Except.error.inj heq
    unfold replace at hreplaced
    split at hreplaced
    · exact h hreplaced
    · contradiction
  · rintro ⟨⟩

namespace Inquiry

variable {α : Type}

/-- The inquiry with other answers, unless one of the items that were given is the failure with an
error. -/
def revise (error : QueryError) (change : α → α) (inquiry : Inquiry α) : Inquiry α where
  next given :=
    match inquiry.next given with
    | .ask trace => .ask trace
    | .answer trace answer =>
      .answer trace (if given.any (Item.isFailure error) then answer else change answer)
  last given :=
    let (trace, answer) := inquiry.last given
    (trace, if given.any (Item.isFailure error) then answer else change answer)

/-- Where no item is that failure, every answer was changed. -/
theorem Answers.exists_eq_change {error : QueryError} {change : α → α} {inquiry : Inquiry α}
    {given : List Item} {answer : α} (h : (inquiry.revise error change).Answers given answer)
    (hgiven : .error error ∉ given) : ∃ original, answer = change original := by
  have hnone := Item.any_isFailure_eq_false hgiven
  cases h with
  | next h =>
      unfold revise at h
      dsimp only at h
      rw [hnone] at h
      split at h
      · cases h
      · cases h
        exact ⟨_, rfl⟩
  | last h =>
      unfold revise at h
      dsimp only at h
      rw [hnone] at h
      exact ⟨_, h.symm⟩

end Inquiry

namespace Registry

/-- The registry whose objects bring up another error in the place of one. What they pass on from
the items of their input stays as it is. -/
def replacing (queries : Registry) (error other : QueryError) : Registry where
  matching name :=
    { queries.matching name with
      test := fun candidate =>
        let verdict := (queries.matching name).test candidate
        { verdict with result := verdict.result.mapError (QueryError.replace error other) } }
  sequence name :=
    match queries.sequence name with
    | .streaming opening width pull =>
      .streaming (opening.revise error (Except.mapError (QueryError.replace error other))) width
        fun exchange => (pull exchange).revise error
          (Option.map (Except.mapError (QueryError.replace error other)))
    | .collecting perform => .collecting fun input =>
      let reading := perform input
      if input.items.any (Item.isFailure error) then reading
      else { reading with result := reading.result.mapError (QueryError.replace error other) }

variable {error other : QueryError}

/-- Where an object streams, it is one that streamed, with other answers. -/
theorem sequence_replacing_eq_streaming {queries : Registry} {name : String}
    {opening' : Inquiry (Except QueryError Unit)} {width' : Nat}
    {pull' : Exchange → Inquiry (Option Item)}
    (h : (queries.replacing error other).sequence name = .streaming opening' width' pull') :
    ∃ opening width pull, queries.sequence name = .streaming opening width pull ∧
      SequenceQuery.streaming opening' width' pull' =
        .streaming (opening.revise error (Except.mapError (QueryError.replace error other))) width
          fun exchange => (pull exchange).revise error
            (Option.map (Except.mapError (QueryError.replace error other))) := by
  unfold replacing at h
  dsimp only at h
  split at h
  · exact ⟨_, _, _, ‹_›, h.symm⟩
  · cases h

/-- **No object brings up an error that was replaced.** -/
theorem not_raises_replacing (hne : other ≠ error) (queries : Registry) :
    ¬(queries.replacing error other).Raises error := by
  intro h
  cases h with
  | test h => exact QueryError.mapError_replace_ne hne _ h
  | opening hq h hgiven =>
      obtain ⟨opening, width, pull, -, hstreaming⟩ := sequence_replacing_eq_streaming hq
      obtain ⟨rfl, -, -⟩ := SequenceQuery.streaming.inj hstreaming
      obtain ⟨original, hchanged⟩ := h.exists_eq_change hgiven
      exact QueryError.mapError_replace_ne hne original hchanged.symm
  | pull hq h hgiven =>
      obtain ⟨opening, width, pull, -, hstreaming⟩ := sequence_replacing_eq_streaming hq
      obtain ⟨-, -, rfl⟩ := SequenceQuery.streaming.inj hstreaming
      obtain ⟨original, hchanged⟩ := h.exists_eq_change hgiven
      obtain ⟨result, -, hresult⟩ := Option.map_eq_some_iff.mp hchanged.symm
      exact QueryError.mapError_replace_ne hne result hresult
  | @perform name perform input _ hq h hinput =>
      have hinput' := Item.any_isFailure_eq_false hinput
      unfold replacing at hq
      dsimp only at hq
      split at hq
      · cases hq
      · cases hq
        dsimp only at h
        rw [hinput'] at h
        exact QueryError.mapError_replace_ne hne _ h

/-! ## Causes of a failure -/

/-- The query objects of a registry cause a failure with an error: they bring the error up by
themselves, and if they brought up any other one in its place, there would be no such failure. -/
structure Causes (queries : Registry) (error : QueryError) (Fails : Registry → Prop) : Prop where
  /-- The objects bring the error up. -/
  raises : queries.Raises error
  /-- With any other error in its place there is no such failure. -/
  replaced : ∀ other, other ≠ error → ¬Fails (queries.replacing error other)

/-- If in every registry a failure comes from something else or its error from an object, then it
comes from something else or the objects cause it. -/
theorem or_causes_of_raises {Fails : Registry → Prop} {P : Prop}
    (h : ∀ queries, Fails queries → P ∨ queries.Raises error) {queries : Registry}
    (hfails : Fails queries) : P ∨ queries.Causes error Fails := by
  by_cases hP : P
  · exact .inl hP
  · refine .inr ⟨(h queries hfails).resolve_left hP, fun other hne hreplaced => ?_⟩
    exact not_raises_replacing hne queries ((h _ hreplaced).resolve_left hP)

end Registry

end RecordQuery
