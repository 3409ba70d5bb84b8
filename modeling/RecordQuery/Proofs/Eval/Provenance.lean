import RecordQuery.Proofs.Eval.Discipline.Meanings

/-!
# Where the events of a run come from

Whatever an observer sees of an evaluation was caused by something: a pull on the working set, a
query object, or a lookup of a translation that the evaluation made itself. `State.Draws` says so of
one run, for an arbitrary account of what a run causes besides pulling on its working set. What a
collecting query object passes on of its input is none of its own events
(`Registry.Emits`), and the input was pulled from somewhere in turn.

**Main statement** (`Expr.drawn_of_leaves`): every event of an evaluation, of opening a sequence, or
of a later pull on it, is an event of the working set, of a query object, or a lookup in the
translations of the context.
-/

namespace RecordQuery

/-! ## Events on a tape -/

/-- The events that pulls on a tape leave, to its end. -/
def Tape.events : Tape → Trace
  | .step trace _ rest => trace ++ rest.events
  | .closing trace => trace
  | .spent => []

/-- The events that the query objects of a registry leave by themselves. What a collecting object
leaves of the pulls that it makes on its input is not among them. -/
inductive Registry.Emits (queries : Registry) (event : Event) : Prop
  /-- The test of a candidate leaves the event. -/
  | test {name : String} {candidate : Value}
    (h : event ∈ ((queries.matching name).test candidate).trace)
  /-- A streaming object leaves the event at one of its steps. -/
  | streaming {name : String} {trace : Trace} (hleaves : (queries.sequence name).Leaves trace)
    (h : event ∈ trace)
  /-- A collecting object leaves the event, and its input does not. -/
  | perform {name : String} {perform : Tape → Reading (List Value)} {input : Tape}
    (hq : queries.sequence name = .collecting perform) (h : event ∈ (perform input).trace)
    (hinput : event ∉ input.events)

/-! ## Runs that draw on the working set -/

/-- A run whose events are those of the working set or its own, and which leaves no events in the
working set that were not there. -/
structure State.Draws (Own : Event → Prop) (before : State) (trace : Trace) (after : State) :
    Prop where
  /-- Where the events come from. -/
  drawn : ∀ event ∈ trace, event ∈ before.remaining.events ∨ Own event
  /-- What is left of the working set. -/
  left : after.remaining.events ⊆ before.remaining.events

namespace State.Draws

variable {Own : Event → Prop}

/-- A run that leaves the working set alone. -/
theorem of_remaining_eq {before after : State} {trace : Trace}
    (h : after.remaining = before.remaining) (htrace : ∀ event ∈ trace, Own event) :
    before.Draws Own trace after :=
  ⟨fun event hmem => .inr (htrace event hmem), h ▸ List.Subset.refl _⟩

/-- The events of two runs in a row are the working set's or the runs' own, if those of each run
are. -/
theorem trans {s₁ s₂ s₃ : State} {t u : Trace} (h : s₁.Draws Own t s₂) (h' : s₂.Draws Own u s₃) :
    s₁.Draws Own (t ++ u) s₃ := by
  refine ⟨fun event hmem => ?_, List.Subset.trans h'.left h.left⟩
  rcases List.mem_append.mp hmem with hmem | hmem
  · exact h.drawn event hmem
  · exact (h'.drawn event hmem).imp_left fun hleft => h.left hleft

/-- A pull draws on the working set only. -/
theorem pull (state : State) :
    state.Draws Own (Action.pull state).trace (Action.pull state).state := by
  unfold Action.pull
  split
  · rename_i trace item rest hw
    have hremaining : state.remaining = .step trace item rest := by
      unfold State.remaining
      rw [hw]
    refine ⟨fun event hmem => .inl ?_, ?_⟩
    · rw [hremaining]
      exact List.mem_append_left _ hmem
    · rw [hremaining]
      exact List.subset_append_right _ _
  · rename_i trace hw
    have hremaining : state.remaining = .closing trace := by
      unfold State.remaining
      rw [hw]
    refine ⟨fun event hmem => .inl ?_, List.nil_subset _⟩
    rw [hremaining]
    exact hmem
  · exact of_remaining_eq rfl (List.forall_mem_nil _)

/-- The events on a tape of several pulls are those of the pulls. -/
theorem events_tapeOf {state : State} {pulls : List (Outcome (Option Item))}
    (h : Linked (State.Draws Own) state pulls) :
    ∀ event ∈ (Source.tapeOf pulls).events, event ∈ state.remaining.events ∨ Own event := by
  induction pulls generalizing state with
  | nil => exact List.forall_mem_nil _
  | cons o rest ih =>
      obtain ⟨hfirst, hrest⟩ := h
      intro event hmem
      obtain ⟨_ | item, state', trace⟩ := o
      · exact hfirst.drawn event hmem
      · rcases List.mem_append.mp hmem with hmem | hmem
        · exact hfirst.drawn event hmem
        · exact (ih hrest event hmem).imp_left fun hleft => hfirst.left hleft

/-- A reader whose own events are accounted for draws on the working set through the sequence that
it is handed. -/
theorem performing {perform : Tape → Reading (List Value)}
    (hown : ∀ input, ∀ event ∈ (perform input).trace, event ∉ input.events → Own event)
    {state : State} {pulls : List (Outcome (Option Item))}
    (h : Linked (State.Draws Own) state pulls) :
    state.Draws Own (perform (Source.tapeOf pulls)).trace
      (stateAfter state pulls ((Source.tapeOf pulls).length -
        (perform (Source.tapeOf pulls)).rest.length)) := by
  have hmade := h.holds_stateAfter
    (fun _ => of_remaining_eq rfl (List.forall_mem_nil _)) trans
    ((Source.tapeOf pulls).length - (perform (Source.tapeOf pulls)).rest.length)
  refine ⟨fun event hmem => ?_, hmade.left⟩
  by_cases hinput : event ∈ (Source.tapeOf pulls).events
  · exact events_tapeOf h event hinput
  · exact .inr (hown _ event hmem hinput)

end State.Draws

/-! ## The discipline -/

/-- What a run causes itself: the events of the query objects that it calls, and lookups that are
allowed. -/
def Registry.Causing (queries : Registry) (Allowed : String → String → Prop) (event : Event) :
    Prop :=
  queries.Emits event ∨ ∃ locale key, event = .lookup locale key ∧ Allowed locale key

/-- **Runs draw on the working set**, and cause the rest of their events themselves. -/
def Registry.provenance (queries : Registry) (Allowed : String → String → Prop) :
    Discipline queries Allowed where
  Holds := State.Draws (queries.Causing Allowed)
  refl _ := .of_remaining_eq rfl (List.forall_mem_nil _)
  trans := .trans
  scope _ _ h := ⟨h.drawn, h.left⟩
  lookup _ locale key hallowed := by
    refine .of_remaining_eq rfl ?_
    rw [List.forall_mem_singleton]
    exact .inr ⟨locale, key, rfl, hallowed⟩
  take state tape hw := by
    refine .of_remaining_eq ?_ (List.forall_mem_nil _)
    unfold State.remaining
    rw [hw]
  pull := .pull
  test _ _ _ := .of_remaining_eq rfl fun _ hmem => .inl (.test hmem)
  streaming _ _ hleaves _ := .of_remaining_eq rfl fun _ hmem => .inl (.streaming hleaves hmem)
  performing hq _ _ hlinked :=
    .performing (fun _ _ hmem hinput => .inl (.perform hq hmem hinput)) hlinked

/-! ## Expressions -/

namespace Expr

/-- Where a trace of an expression can come from: its value is computed or it is decided, its
sequence is opened or collected, or the sequence is pulled on later, however far it was read. -/
inductive Leaves (ctx : Context) (e : Expr) (state : State) (trace : Trace) : Prop
  | value (h : ((e.value ctx).run state).trace = trace)
  | isTrue (h : ((e.isTrue ctx).run state).trace = trace)
  | start (h : ((e.source ctx).start.run state).trace = trace)
  | advance (cursor : Cursor) (h : ((e.source ctx).advance cursor state).trace = trace)
  | collect (h : ((e.source ctx).collect.run state).trace = trace)

/-- **Every event has a cause**: it is an event of the working set, a query object leaves it, or it
is a lookup in the translations of the context. -/
theorem drawn_of_leaves {ctx : Context} {e : Expr} {state : State} {trace : Trace}
    (h : e.Leaves ctx state trace) {event : Event} (hmem : event ∈ trace) :
    event ∈ state.remaining.events ∨ ctx.queries.Emits event ∨
      ∃ translations ∈ ctx.translations, ∃ key, ∃ locale ∈ translations.lookups key,
        event = .lookup locale key := by
  let Allowed : String → String → Prop := fun locale key =>
    ∃ translations ∈ ctx.translations, locale ∈ translations.lookups key
  have hctx : ctx.LooksWithin Allowed :=
    fun translations htranslations _ _ hlocale => ⟨translations, htranslations, hlocale⟩
  have hobeys := meaning_obeys_of (ctx.queries.provenance Allowed) hctx e
  have hdraws : ∃ after, state.Draws (ctx.queries.Causing Allowed) trace after := by
    rcases h with h | h | h | ⟨cursor, h⟩ | h
    · exact ⟨_, h ▸ hobeys.value state⟩
    · exact ⟨_, h ▸ Eval.obeys_map Value.isTrue hobeys.value state⟩
    · exact ⟨_, h ▸ hobeys.source.start state⟩
    · exact ⟨_, h ▸ hobeys.source.advance cursor state⟩
    · exact ⟨_, h ▸ hobeys.source.collect state⟩
  obtain ⟨after, hdraws⟩ := hdraws
  refine (hdraws.drawn event hmem).imp_right (Or.imp_right ?_)
  rintro ⟨locale, key, rfl, translations, htranslations, hlocale⟩
  exact ⟨translations, htranslations, key, locale, hlocale, rfl⟩

end Expr

end RecordQuery
