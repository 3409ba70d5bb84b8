import RecordQuery.Proofs.Eval.Discipline.Meanings
import RecordQuery.Proofs.Query.Nesting

/-!
# Runs of expressions nest

A run of an expression reads its working set as far as it likes, and calls query objects, which may
be handed sequences that read the working set further. `State.Reads` relates the state before, the
trace, and the state after: some pulls are made on what was left of the working set, their events
are in the trace in order, and the trace nests if those of the pulls do.

**Main statement** (`Registry.Proper.nesting`): where all query objects are proper, `State.Reads` is
a discipline, so that it holds of every run of every expression, whatever its result.
-/

namespace RecordQuery

/-! ## Proper query objects -/

/-- The query objects of a registry leave traces that nest, and keep the pulls that they make. -/
structure Registry.Proper (queries : Registry) : Prop where
  /-- The test of a candidate leaves a nested trace. -/
  test : ∀ name candidate, ((queries.matching name).test candidate).trace.Nested
  /-- A streaming query object leaves nested traces. -/
  streaming : ∀ (name : String) {trace : Trace}, (queries.sequence name).Leaves trace →
    trace.Nested
  /-- A collecting query object reads whatever input it is given properly. -/
  performing : ∀ {name : String} {perform : Tape → Reading (List Value)},
    queries.sequence name = .collecting perform → ∀ input, (perform input).Proper input

/-! ## Reading the working set -/

/-- A run that reads what is left of the working set: it makes some pulls, keeps their events, and
nests if they do. -/
structure State.Reads (before : State) (trace : Trace) (after : State) : Prop where
  /-- Some pulls are made, and their events are in the trace in order. -/
  pulled : ∃ n, after.remaining = before.remaining.drop n ∧
    (before.remaining.pulled n).Sublist trace
  /-- The trace nests if those of the pulls do. -/
  nested : before.remaining.Nested → trace.Nested

namespace State.Reads

/-- A run that leaves the working set alone. -/
theorem of_remaining_eq {before after : State} {trace : Trace}
    (h : after.remaining = before.remaining) (htrace : trace.Nested) :
    before.Reads trace after := by
  refine ⟨⟨0, ?_, ?_⟩, fun _ => htrace⟩
  · rw [Tape.drop_zero, h]
  · rw [Tape.pulled_zero]
    exact List.nil_sublist trace

/-- Two runs that read the working set one after the other read it. -/
theorem trans {s₁ s₂ s₃ : State} {t u : Trace} (h : s₁.Reads t s₂) (h' : s₂.Reads u s₃) :
    s₁.Reads (t ++ u) s₃ := by
  obtain ⟨⟨n, hn, hpulled⟩, hnested⟩ := h
  obtain ⟨⟨m, hm, hpulled'⟩, hnested'⟩ := h'
  rw [hn] at hm hpulled' hnested'
  refine ⟨⟨n + m, ?_, ?_⟩, fun hs => ?_⟩
  · rw [hm, Tape.drop_drop]
  · rw [Tape.pulled_add]
    exact hpulled.append hpulled'
  · exact (hnested hs).append (hnested' (hs.drop n))

/-- A pull reads the working set, if it was taken, and else leaves it alone. -/
theorem pull (state : State) :
    state.Reads (Action.pull state).trace (Action.pull state).state := by
  unfold Action.pull
  split
  · rename_i trace item rest hw
    have hremaining : state.remaining = .step trace item rest := by
      unfold State.remaining
      rw [hw]
    refine ⟨⟨1, ?_, ?_⟩, fun h => ?_⟩
    · rw [hremaining]
      exact (Tape.drop_zero rest).symm
    · simp [hremaining, Tape.pulled]
    · rw [hremaining] at h
      exact h.1
  · rename_i trace hw
    have hremaining : state.remaining = .closing trace := by
      unfold State.remaining
      rw [hw]
    refine ⟨⟨1, ?_, ?_⟩, fun h => ?_⟩
    · rw [hremaining]
      rfl
    · simp [hremaining, Tape.pulled]
    · rw [hremaining] at h
      exact h
  · exact of_remaining_eq rfl .nil

end State.Reads

/-! ## Handing a sequence over -/

namespace Source

/-- The events of the first pulls on a tape are those of the outcomes that it was made of. -/
theorem pulled_tapeOf {pulls : List (Outcome (Option Item))} {made : Nat}
    (h : made ≤ (tapeOf pulls).length) :
    (tapeOf pulls).pulled made = (pulls.take made).flatMap Outcome.trace := by
  induction pulls generalizing made with
  | nil => simp [tapeOf]
  | cons o rest ih =>
      rcases made with _ | made
      · simp
      · obtain ⟨_ | item, state, trace⟩ := o
        · have hmade : made = 0 := by
            simpa [tapeOf, Tape.length] using h
          subst hmade
          simp [tapeOf, Tape.pulled]
        · have hmade : made ≤ (tapeOf rest).length := by
            simpa [tapeOf, Tape.length] using h
          rw [tapeOf, Tape.pulled, ih hmade, List.take_succ_cons, List.flatMap_cons]

/-- Pulls that read what is left of the working set make up a tape that nests if that does. -/
theorem nested_tapeOf {state : State} {pulls : List (Outcome (Option Item))}
    (h : Linked State.Reads state pulls) (hnested : state.remaining.Nested) :
    (tapeOf pulls).Nested := by
  induction pulls generalizing state with
  | nil => trivial
  | cons o rest ih =>
      obtain ⟨hfirst, hrest⟩ := h
      have htrace := hfirst.nested hnested
      obtain ⟨n, hn, -⟩ := hfirst.pulled
      have hlater : o.state.remaining.Nested := by
        rw [hn]
        exact hnested.drop n
      obtain ⟨_ | item, state', trace⟩ := o
      · exact htrace
      · exact ⟨htrace, ih hrest hlater⟩

end Source

/-- A reader that is proper reads the working set through the sequence that it is handed. -/
theorem State.Reads.performing {perform : Tape → Reading (List Value)}
    (hproper : ∀ input, (perform input).Proper input) {state : State}
    {pulls : List (Outcome (Option Item))} (h : Linked State.Reads state pulls) :
    state.Reads (perform (Source.tapeOf pulls)).trace
      (stateAfter state pulls ((Source.tapeOf pulls).length -
        (perform (Source.tapeOf pulls)).rest.length)) := by
  obtain ⟨⟨n, hrest, hpulled⟩, hnested⟩ := hproper (Source.tapeOf pulls)
  have hmade : (Source.tapeOf pulls).length - (perform (Source.tapeOf pulls)).rest.length =
      min n (Source.tapeOf pulls).length := by
    rw [hrest, Tape.length_drop]
    omega
  rw [hmade]
  have hreads := h.holds_stateAfter (fun _ => .of_remaining_eq rfl .nil) .trans
    (min n (Source.tapeOf pulls).length)
  obtain ⟨⟨m, hm, hpulled'⟩, -⟩ := hreads
  refine ⟨⟨m, hm, ?_⟩, fun hs => hnested (Source.nested_tapeOf h hs)⟩
  rw [← Source.pulled_tapeOf (Nat.min_le_right _ _), Tape.pulled_min_length] at hpulled'
  exact hpulled'.trans hpulled

/-! ## The discipline -/

/-- **Runs over proper query objects nest**: every step of an evaluation reads the working set
properly. -/
def Registry.Proper.nesting {queries : Registry} (h : queries.Proper) : Discipline queries where
  Holds := State.Reads
  refl _ := .of_remaining_eq rfl .nil
  trans := .trans
  scope _ _ h := ⟨h.pulled, h.nested⟩
  lookup _ _ _ _ := .of_remaining_eq rfl (Trace.nested_singleton rfl)
  take state tape hw := by
    refine .of_remaining_eq ?_ .nil
    unfold State.remaining
    rw [hw]
  pull := .pull
  test state name candidate := .of_remaining_eq rfl (h.test name candidate)
  streaming name _ hleaves _ := .of_remaining_eq rfl (h.streaming name hleaves)
  performing hq _ _ hlinked := .performing (h.performing hq) hlinked

end RecordQuery
