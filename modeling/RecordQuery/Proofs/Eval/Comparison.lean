import RecordQuery.Eval.Calls
import RecordQuery.Proofs.Eval.Outcome
import RecordQuery.Proofs.Query.Raises

/-!
# Two runs side by side

A `Comparison` says how the states of two runs stand to one another and which errors may end them.
Two evaluations are *alike* (`Eval.Alike`) if from all states that stand so they have the same
result, a value of which some condition holds or an expected error, and the same trace, release
their bindings, and leave states that stand so again.

The two states share a working set, or have one each that differs from the other at most in whether
a silent end is still to be found, or keep one each that is left alone; neither run can tell one
working set that was taken from another. How their live bindings are related is not part of the
comparison, because it changes under a lambda.

Comparing an evaluation with itself is worth while too: it shows which errors it can end in, and
that it sees no more of the bindings than the relation between them keeps.
-/

namespace RecordQuery

/-! ## Comparisons -/

/-- Some item that is left in the working set carries the error. -/
def State.Carries (state : State) (e : QueryError) : Prop :=
  .error e ∈ state.remaining.items

/-- The working set with the plain form of its tape. -/
def WorkingSet.plain : WorkingSet → WorkingSet
  | .unset => .unset
  | .available tape => .available tape.plain
  | .taken tape => .taken tape.plain

/-- How the working sets of two runs stand to one another. -/
inductive Sharing where
  /-- Both runs have the same working set. -/
  | shared
  /-- The runs have working sets of the same plain form. -/
  | twins
  /-- Each run has its own, and leaves it alone. -/
  | apart (left right : WorkingSet)

/-- Whether both runs may read their working sets. -/
def Sharing.Joined : Sharing → Prop
  | .shared | .twins => True
  | .apart .. => False

/-- Whether taking the working set comes to the same in both runs: they may read it, or neither of
them has one, or both working sets were taken before. -/
def Sharing.TakesAlike : Sharing → Prop
  | .shared | .twins | .apart .unset .unset | .apart (.taken _) (.taken _) => True
  | .apart .. => False

/-- What is kept while two runs go on side by side, and what may end them. -/
structure Comparison (queries : Registry) where
  /-- How the working sets stand to one another. -/
  sharing : Sharing
  /-- The errors that may end the runs. -/
  Expected : QueryError → Prop
  /-- The errors that query objects bring up are expected. -/
  expected_of_raises : ∀ {e}, queries.Raises e → Expected e

/-- The comparison of runs that any error may end. -/
def Comparison.anyError (queries : Registry) (sharing : Sharing) : Comparison queries :=
  ⟨sharing, fun _ => True, fun _ => trivial⟩

/-- A relation between the live bindings of two states. -/
abbrev Bindings.Relation := List (String × Value) → List (String × Value) → Prop

/-- Whether a cursor reads the working set. -/
def Cursor.readsWorkingSet : Cursor → Bool
  | values _ => false
  | workingSet => true
  | derived inner | unseen _ inner | atMost _ inner | through _ _ _ inner => inner.readsWorkingSet

variable {queries : Registry} (c : Comparison queries) {α β γ : Type}

namespace Comparison

/-- The working sets of two states stand to one another as they should. All failures in a working
set that may be read are expected. -/
def Beside (s s' : State) : Prop :=
  match c.sharing with
  | .shared => s'.workingSet = s.workingSet ∧ ∀ e, s.Carries e → c.Expected e
  | .twins => s'.workingSet.plain = s.workingSet.plain ∧ ∀ e, s.Carries e → c.Expected e
  | .apart left right => s.workingSet = left ∧ s'.workingSet = right

/-- Two states that runs can start from. -/
structure Related (B : Bindings.Relation) (s s' : State) : Prop where
  /-- The live bindings are related. -/
  bindings : B s.bindings s'.bindings
  /-- The working sets stand to one another as they should. -/
  workingSets : c.Beside s s'

/-- Two outcomes of runs from two states that are what they should be. -/
structure Meets (s s' : State) (Holds : α → Prop) (o o' : Outcome α) : Prop where
  /-- The results are the same. -/
  value : o'.value = o.value
  /-- The condition holds of the result. -/
  holds : Holds o.value
  /-- The traces are the same. -/
  trace : o'.trace = o.trace
  /-- The first run releases its bindings. -/
  left : o.state.bindings = s.bindings
  /-- The second run releases its bindings. -/
  right : o'.state.bindings = s'.bindings
  /-- The working sets stand to one another as they should. -/
  workingSets : c.Beside o.state o'.state

/-- A value of which a condition holds, or an expected error. -/
def Succeeds (Holds : α → Prop) : Except QueryError α → Prop
  | .ok a => Holds a
  | .error e => c.Expected e

/-- If the item is a failure, it is expected. -/
def Admissible (item : Option Item) : Prop :=
  ∀ e, item = some (.error e) → c.Expected e

/-- The cursor reads the working set only if both runs may. -/
def Admits (cursor : Cursor) : Prop :=
  c.sharing.Joined ∨ cursor.readsWorkingSet = false

/-- An admissible item, and a cursor that is admitted. -/
def Pulled (pulled : Option Item × Cursor) : Prop :=
  c.Admissible pulled.1 ∧ c.Admits pulled.2

/-- An answer of a query object of which a condition holds, and a cursor that is admitted. -/
def Consulted (Holds : α → Prop) (consulted : α × Exchange × Cursor) : Prop :=
  Holds consulted.1 ∧ c.Admits consulted.2.2

end Comparison

variable (B : Bindings.Relation)

/-- Runs of two actions from related states have outcomes that are what they should be. -/
def Action.Alike (Holds : α → Prop) (action action' : Action α) : Prop :=
  ∀ s s', c.Related B s s' → c.Meets s s' Holds (action s) (action' s')

/-- Runs of two evaluations from related states have outcomes that are what they should be. -/
def Eval.Alike (Holds : α → Prop) (x x' : Eval α) : Prop :=
  Action.Alike c B (c.Succeeds Holds) x x'

/-- Two sequences are alike when they are opened, and when they are pulled on at any cursor that is
admitted. -/
structure Source.Alike (source source' : Source) : Prop where
  /-- They open alike. -/
  start : Eval.Alike c B c.Admits source.start source'.start
  /-- They are pulled on alike. -/
  advance : ∀ cursor, c.Admits cursor →
    Action.Alike c B c.Pulled (source.advance cursor) (source'.advance cursor)

/-- Two lambdas are alike when they are applied to the same argument. Their variables may differ. -/
def Binder.Alike (binder binder' : Binder) : Prop :=
  ∀ argument, Eval.Alike c B (fun _ => True) (binder.apply argument) (binder'.apply argument)

variable {c B}

/-! ## States -/

/-- What is left of working sets of the same plain form has the same plain form. -/
theorem State.plain_remaining {s s' : State} (h : s'.workingSet.plain = s.workingSet.plain) :
    s'.remaining.plain = s.remaining.plain := by
  unfold State.remaining
  generalize s.workingSet = w, s'.workingSet = w' at h
  rcases w with _ | tape | tape <;> rcases w' with _ | tape' | tape'
  case unset.unset => rfl
  case available.available => exact WorkingSet.available.inj h
  case taken.taken => exact WorkingSet.taken.inj h
  all_goals cases h

namespace Comparison

/-- Only the working sets count for how two states stand to one another. -/
theorem Beside.of_workingSet_eq {s s' t t' : State} (h : c.Beside s s')
    (hs : t.workingSet = s.workingSet) (hs' : t'.workingSet = s'.workingSet) : c.Beside t t' := by
  unfold Beside State.Carries State.remaining at h ⊢
  rw [hs, hs']
  exact h

/-- What it means that a working set is shared. -/
theorem beside_iff_of_shared (hshared : c.sharing = .shared) {s s' : State} :
    c.Beside s s' ↔ s'.workingSet = s.workingSet ∧ ∀ e, s.Carries e → c.Expected e := by
  unfold Beside
  rw [hshared]

/-- What it means that working sets are twins. -/
theorem beside_iff_of_twins (htwins : c.sharing = .twins) {s s' : State} :
    c.Beside s s' ↔
      s'.workingSet.plain = s.workingSet.plain ∧ ∀ e, s.Carries e → c.Expected e := by
  unfold Beside
  rw [htwins]

/-- Working sets that may be read have the same plain form. -/
theorem Beside.plain_eq {s s' : State} (h : c.Beside s s') (hjoined : c.sharing.Joined) :
    s'.workingSet.plain = s.workingSet.plain := by
  rcases hsharing : c.sharing with _ | _ | ⟨left, right⟩
  · rw [((beside_iff_of_shared hsharing).mp h).1]
  · exact ((beside_iff_of_twins hsharing).mp h).1
  · rw [hsharing] at hjoined
    cases hjoined

/-- An outcome that leaves the working sets alone and has nothing to show on the way. -/
theorem Meets.of_unchanged {s s' : State} (h : c.Related B s s') {Holds : α → Prop} {a : α}
    (ha : Holds a) (trace : Trace) : c.Meets s s' Holds ⟨a, s, trace⟩ ⟨a, s', trace⟩ :=
  ⟨rfl, ha, rfl, rfl, rfl, h.workingSets⟩

/-- After two runs the states are related as before. -/
theorem Meets.related {s s' : State} {Holds : α → Prop} {o o' : Outcome α}
    (h : c.Meets s s' Holds o o') (hs : c.Related B s s') : c.Related B o.state o'.state := by
  refine ⟨?_, h.workingSets⟩
  rw [h.left, h.right]
  exact hs.bindings

/-- A weaker condition may hold of the result. -/
theorem Meets.mono {s s' : State} {P Q : α → Prop} {o o' : Outcome α} (h : c.Meets s s' P o o')
    (hPQ : ∀ a, P a → Q a) : c.Meets s s' Q o o' :=
  ⟨h.value, hPQ _ h.holds, h.trace, h.left, h.right, h.workingSets⟩

/-- What follows two outcomes that are what they should be. -/
theorem Meets.after {s s' : State} {P : α → Prop} {o o' : Outcome α} (h : c.Meets s s' P o o')
    {Q : β → Prop} {p p' : Outcome β} (hp : c.Meets o.state o'.state Q p p') :
    c.Meets s s' Q (p.after o.trace) (p'.after o'.trace) where
  value := hp.value
  holds := hp.holds
  trace := by rw [Outcome.after_trace, Outcome.after_trace, h.trace, hp.trace]
  left := hp.left.trans h.left
  right := hp.right.trans h.right
  workingSets := hp.workingSets

/-- Outcomes of two runs from the same state with a shared working set are the same. -/
theorem Meets.eq_of_shared (hshared : c.sharing = .shared) {s : State} {Holds : α → Prop}
    {o o' : Outcome α} (h : c.Meets s s Holds o o') : o' = o := by
  obtain ⟨value, ⟨bindings, workingSet⟩, trace⟩ := o
  obtain ⟨value', ⟨bindings', workingSet'⟩, trace'⟩ := o'
  have hvalue : value' = value := h.value
  have htrace : trace' = trace := h.trace
  have hbindings : bindings' = bindings := h.right.trans h.left.symm
  have hset : workingSet' = workingSet := ((beside_iff_of_shared hshared).mp h.workingSets).1
  rw [hvalue, htrace, hbindings, hset]

/-- The end is no failure. -/
theorem admissible_none : c.Admissible none := by
  rintro e ⟨⟩

/-- A value is no failure. -/
theorem admissible_ok (value : Value) : c.Admissible (some (.ok value)) := by
  rintro e ⟨⟩

/-- What is handed on is the answer, or the end. -/
theorem admissible_handOn {answer : Option Item} (h : c.Admissible answer) (width : Nat)
    (exchange : Exchange) : c.Admissible (exchange.handOn width answer).1 := by
  rcases answer with _ | item
  · exact h
  · unfold Exchange.handOn
    dsimp only
    split
    · exact h
    · exact admissible_none

/-- A cursor among values reads no working set. -/
theorem admits_values (rest : List Value) : c.Admits (.values rest) :=
  .inr rfl

/-- Where both runs may read their working sets, every cursor is admitted. -/
theorem admits_of_joined (hjoined : c.sharing.Joined) (cursor : Cursor) : c.Admits cursor :=
  .inl hjoined

/-- The numbers of items that can still come are the same on both sides. -/
theorem Related.bound_eq {s s' : State} (h : c.Related B s s') {cursor : Cursor}
    (hc : c.Admits cursor) : cursor.bound s' = cursor.bound s := by
  induction cursor with
  | values rest => rfl
  | workingSet =>
      rcases hc with hjoined | hreads
      · have hplain := State.plain_remaining (h.workingSets.plain_eq hjoined)
        unfold Cursor.bound
        rw [← Tape.itemCount_plain, hplain, Tape.itemCount_plain]
      · cases hreads
  | derived inner ih => exact ih hc
  | unseen seen inner ih => exact ih hc
  | atMost left inner ih => exact ih hc
  | through query width exchange inner ih =>
      have hbound : inner.bound s' = inner.bound s := ih hc
      unfold Cursor.bound
      rw [hbound]

end Comparison

/-! ## Composition -/

namespace Action

/-- A value of which the condition holds is alike. -/
theorem alike_pure {Holds : α → Prop} {a : α} (ha : Holds a) :
    Action.Alike c B Holds (pure a) (pure a) :=
  fun _ _ h => .of_unchanged h ha []

/-- A weaker condition may hold of the value. -/
theorem Alike.mono {P Q : α → Prop} {action action' : Action α} (h : Alike c B P action action')
    (hPQ : ∀ a, P a → Q a) : Alike c B Q action action' :=
  fun s s' hs => (h s s' hs).mono hPQ

/-- Leaving the same events is alike. -/
theorem alike_leave (trace : Trace) :
    Action.Alike c B (fun _ => True) (leave trace) (leave trace) :=
  fun _ _ h => .of_unchanged h trivial trace

/-- Actions in a row are alike if each of them is, the second for every value that the first may
have. -/
theorem alike_bind {P : α → Prop} {Q : β → Prop} {first first' : Action α}
    {next next' : α → Action β} (h : Alike c B P first first')
    (hnext : ∀ a, P a → Alike c B Q (next a) (next' a)) :
    Alike c B Q (first >>= next) (first' >>= next') := by
  intro s s' hs
  have hfirst := h s s' hs
  rw [bind_eq_after, bind_eq_after, hfirst.value]
  exact hfirst.after (hnext _ hfirst.holds _ _ (hfirst.related hs))

end Action

namespace Eval

/-- A result of which the condition holds is alike. -/
theorem alike_pure {Holds : α → Prop} {a : α} (ha : Holds a) :
    Eval.Alike c B Holds (pure a) (pure a) :=
  fun _ _ h => .of_unchanged (a := Except.ok a) h ha []

/-- A failure that is expected is alike. -/
theorem alike_throw {Holds : α → Prop} {e : QueryError} (he : c.Expected e) :
    Eval.Alike c B Holds (throw e) (throw e) :=
  fun _ _ h => .of_unchanged (a := Except.error e) h he []

/-- A report of what is expected is alike. -/
theorem alike_report {Holds : α → Prop} (trace : Trace) {result : Except QueryError α}
    (h : c.Succeeds Holds result) :
    Eval.Alike c B Holds (report trace result) (report trace result) :=
  fun _ _ hs => .of_unchanged hs h trace

/-- A weaker condition may hold of the result. -/
theorem Alike.mono {P Q : α → Prop} {x x' : Eval α} (h : Alike c B P x x')
    (hPQ : ∀ a, P a → Q a) : Alike c B Q x x' :=
  Action.Alike.mono h fun result hresult =>
    match result with
    | .ok a => hPQ a hresult
    | .error _ => hresult

/-- Evaluations in a row are alike if each of them is, the second for every result that the first
may have. -/
theorem alike_bind {P : α → Prop} {Q : β → Prop} {x x' : Eval α} {f f' : α → Eval β}
    (h : Alike c B P x x') (hf : ∀ a, P a → Alike c B Q (f a) (f' a)) :
    Alike c B Q (x >>= f) (x' >>= f') := by
  intro s s' hs
  have hfirst := h s s' hs
  have hvalue : (x'.run s').value = (x.run s).value := hfirst.value
  have hholds : c.Succeeds P (x.run s).value := hfirst.holds
  show c.Meets s s' _ ((x >>= f).run s) ((x' >>= f').run s')
  rcases hx : (x.run s).value with e | a <;> rw [hx] at hvalue hholds
  · rw [run_bind_error hx, run_bind_error hvalue]
    exact ⟨rfl, hholds, hfirst.trace, hfirst.left, hfirst.right, hfirst.workingSets⟩
  · rw [run_bind_ok hx, run_bind_ok hvalue]
    exact hfirst.after (hf a hholds _ _ (hfirst.related hs))

/-- A run that is alike to another can end in expected errors only. -/
theorem Alike.expected_of_error {P : α → Prop} {x x' : Eval α} (h : Alike c B P x x')
    {s s' : State} (hs : c.Related B s s') {e : QueryError} (he : (x.run s).value = .error e) :
    c.Expected e := by
  have hholds : c.Succeeds P (x.run s).value := (h s s' hs).holds
  rw [he] at hholds
  exact hholds

/-- A function of a result is alike, if the condition holds of its values. -/
theorem alike_map {P : α → Prop} {Q : β → Prop} {x x' : Eval α} (f : α → β)
    (h : Alike c B P x x') (hf : ∀ a, P a → Q (f a)) : Alike c B Q (f <$> x) (f <$> x') := by
  rw [map_eq_pure_bind, map_eq_pure_bind]
  exact alike_bind h fun a ha => alike_pure (hf a ha)

/-- Actions that are alike are so as evaluations. -/
theorem alike_ofAction {Holds : α → Prop} {action action' : Action α}
    (h : Action.Alike c B Holds action action') :
    Alike c B Holds (ofAction action) (ofAction action') := by
  intro s s' hs
  have haction := h s s' hs
  show c.Meets s s' _ ((ofAction action).run s) ((ofAction action').run s')
  rw [run_ofAction, run_ofAction]
  exact ⟨congrArg Except.ok haction.value, haction.holds, haction.trace, haction.left,
    haction.right, haction.workingSets⟩

/-! ## Steps -/

/-- Two variables read alike if they are bound to the same value, or if one and the same variable
has no binding on either side and that is expected. -/
theorem alike_resolve {name name' : String}
    (h : ∀ σ σ', B σ σ' → Named.lookup name' σ' = Named.lookup name σ ∧
      (Named.lookup name σ = none → name' = name ∧ c.Expected (.variableUnbound name))) :
    Alike c B (fun _ => True) (resolve name) (resolve name') := by
  intro s s' hs
  obtain ⟨hlookup, hunbound⟩ := h _ _ hs.bindings
  show c.Meets s s' _ ((resolve name).run s) ((resolve name').run s')
  rw [run_resolve, run_resolve, hlookup]
  rcases hv : Named.lookup name s.bindings with _ | value
  · obtain ⟨rfl, he⟩ := hunbound hv
    exact .of_unchanged (a := Except.error (QueryError.variableUnbound name')) hs he []
  · exact .of_unchanged (a := Except.ok value) hs trivial []

/-- What is done if a variable has a binding, and what is done if it has none. The first need be
alike only where the binding is there. -/
theorem alike_ifBound {Holds : α → Prop} {name : String} {x x' y y' : Eval α}
    (hlookup : ∀ σ σ', B σ σ' → Named.lookup name σ' = Named.lookup name σ)
    (hx : Alike c (fun σ σ' => B σ σ' ∧ (Named.lookup name σ).isSome) Holds x x')
    (hy : Alike c B Holds y y') :
    Alike c B Holds (do if ← isBound name then x else y)
      (do if ← isBound name then x' else y') := by
  intro s s' hs
  show c.Meets s s' _ ((do if ← isBound name then x else y : Eval α).run s)
    ((do if ← isBound name then x' else y' : Eval α).run s')
  rw [run_ifBound, run_ifBound, hlookup _ _ hs.bindings]
  split
  · exact hx s s' ⟨⟨hs.bindings, ‹_›⟩, hs.workingSets⟩
  · exact hy s s' hs

/-- A parameter is alike, if it has a value or its absence is expected. -/
theorem alike_parameter {ctx : Context} {ref : ParameterRef}
    (h : ctx.parameters.get? ref = none → c.Expected (.parameterUnbound ref)) :
    Alike c B (fun _ => True) (parameter ctx ref) (parameter ctx ref) := by
  unfold parameter
  split
  · exact alike_pure trivial
  · exact alike_throw (h ‹_›)

/-- Bodies that are alike under one more binding on either side, which is released at the end. -/
theorem alike_withBinding {B' : Bindings.Relation} {Holds : α → Prop} {name name' : String}
    {value : Value} {body body' : Eval α}
    (hB : ∀ σ σ', B σ σ' → B' ((name, value) :: σ) ((name', value) :: σ'))
    (h : Alike c B' Holds body body') :
    Alike c B Holds (withBinding name value body) (withBinding name' value body') := by
  intro s s' hs
  have hpushed : c.Related B' { s with bindings := (name, value) :: s.bindings }
      { s' with bindings := (name', value) :: s'.bindings } :=
    ⟨hB _ _ hs.bindings, hs.workingSets.of_workingSet_eq rfl rfl⟩
  have hbody := h _ _ hpushed
  exact ⟨hbody.value, hbody.holds, hbody.trace, congrArg List.tail hbody.left,
    congrArg List.tail hbody.right, hbody.workingSets.of_workingSet_eq rfl rfl⟩

/-- Translating a key is alike, whatever the texts. -/
theorem alike_translate (translations : Translations) (key : String) :
    Alike c B (fun _ => True) (translate translations key) (translate translations key) :=
  alike_report _ trivial

end Eval

/-- Lambdas are alike if their bodies are, with the argument bound on either side. -/
theorem Binder.alike_of_body {B' : Bindings.Relation} {binder binder' : Binder}
    (hB : ∀ value σ σ', B σ σ' → B' ((binder.name, value) :: σ) ((binder'.name, value) :: σ'))
    (h : Eval.Alike c B' (fun _ => True) binder.body binder'.body) :
    Binder.Alike c B binder binder' :=
  fun argument => Eval.alike_withBinding (hB argument) h

/-! ## The working set -/

section shared

variable (hshared : c.sharing = .shared)

include hshared

/-- What is left of a shared working set after a pull holds no failures that were not there. -/
theorem Action.alike_pull_of_shared : Action.Alike c B c.Admissible pull pull := by
  intro s s' hs
  obtain ⟨hsets, hcarried⟩ := (Comparison.beside_iff_of_shared hshared).mp hs.workingSets
  unfold State.Carries State.remaining at hcarried
  unfold pull
  rw [hsets]
  split
  · rename_i trace item rest hw
    simp only [hw, Tape.items, List.mem_cons] at hcarried
    refine ⟨rfl, ?_, rfl, rfl, rfl, ?_⟩
    · rintro e ⟨⟩
      exact hcarried e (.inl rfl)
    · exact (Comparison.beside_iff_of_shared hshared).mpr
        ⟨rfl, fun e he => hcarried e (.inr he)⟩
  · refine ⟨rfl, Comparison.admissible_none, rfl, rfl, rfl, ?_⟩
    refine (Comparison.beside_iff_of_shared hshared).mpr ⟨rfl, fun e he => ?_⟩
    cases he
  · exact .of_unchanged hs Comparison.admissible_none []

/-- Two runs that share a working set take it alike. -/
theorem Cursor.alike_takeEverything_of_shared
    (hconsumed : c.Expected (.evaluation Expr.everythingName 0 .consumed)) :
    Eval.Alike c B c.Admits takeEverything takeEverything := by
  intro s s' hs
  obtain ⟨hsets, hcarried⟩ := (Comparison.beside_iff_of_shared hshared).mp hs.workingSets
  have hjoined : c.sharing.Joined := by
    rw [hshared]
    trivial
  unfold takeEverything
  show c.Meets s s' _ (match s.workingSet with | .unset => _ | .available tape => _ | .taken _ => _)
    (match s'.workingSet with | .unset => _ | .available tape => _ | .taken _ => _)
  rw [hsets]
  split
  · exact .of_unchanged (a := Except.ok (Cursor.values [])) hs (Comparison.admits_values []) []
  · rename_i tape hw
    refine ⟨rfl, Comparison.admits_of_joined hjoined _, rfl, rfl, rfl, ?_⟩
    refine (Comparison.beside_iff_of_shared hshared).mpr ⟨rfl, ?_⟩
    unfold State.Carries State.remaining at hcarried
    rw [hw] at hcarried
    exact hcarried
  · exact .of_unchanged (a := Except.error _) hs hconsumed []

end shared

section twins

variable (htwins : c.sharing = .twins)

include htwins

/-- A pull brings the same from working sets of the same plain form, and they are so afterwards. If
a silent end is still to be found in one of them, it is found there and nothing else happens. -/
theorem Action.alike_pull_of_twins : Action.Alike c B c.Admissible pull pull := by
  rintro ⟨σ, w⟩ ⟨σ', w'⟩ hs
  obtain ⟨hplain, hcarried⟩ := (Comparison.beside_iff_of_twins htwins).mp hs.workingSets
  have hspent : ∀ {tape tape' : Tape}, tape.plain = .spent → tape'.plain = .spent →
      c.Meets ⟨σ, .taken tape⟩ ⟨σ', .taken tape'⟩ c.Admissible (pull ⟨σ, .taken tape⟩)
        (pull ⟨σ', .taken tape'⟩) := by
    intro tape tape' htape htape'
    have hbeside : c.Beside ⟨σ, .taken .spent⟩ ⟨σ', .taken .spent⟩ :=
      (Comparison.beside_iff_of_twins htwins).mpr ⟨rfl, fun e he => by cases he⟩
    rcases Tape.eq_of_plain_eq_spent htape with rfl | rfl <;>
      rcases Tape.eq_of_plain_eq_spent htape' with rfl | rfl <;>
      exact ⟨rfl, Comparison.admissible_none, rfl, rfl, rfl, hbeside⟩
  cases w with
  | unset =>
      cases w' <;> cases hplain
      exact .of_unchanged hs Comparison.admissible_none []
  | available tape =>
      cases w' with
      | unset => cases hplain
      | taken => cases hplain
      | available => exact .of_unchanged hs Comparison.admissible_none []
  | taken tape =>
      cases w' with
      | unset => cases hplain
      | available => cases hplain
      | taken tape' =>
          have htape : tape'.plain = tape.plain := WorkingSet.taken.inj hplain
          cases tape with
          | step trace item rest =>
              obtain ⟨rest', rfl, hrest⟩ := Tape.exists_of_plain_eq_step htape
              refine ⟨rfl, ?_, rfl, rfl, rfl, ?_⟩
              · rintro e ⟨⟩
                exact hcarried e List.mem_cons_self
              · exact (Comparison.beside_iff_of_twins htwins).mpr
                  ⟨congrArg WorkingSet.taken hrest, fun e he => hcarried e (.tail _ he)⟩
          | closing trace =>
              by_cases htrace : trace = []
              · subst htrace
                exact hspent rfl htape
              · obtain rfl := Tape.eq_of_plain_eq_closing htrace htape
                refine ⟨rfl, Comparison.admissible_none, rfl, rfl, rfl, ?_⟩
                exact (Comparison.beside_iff_of_twins htwins).mpr ⟨rfl, fun e he => by cases he⟩
          | spent => exact hspent rfl htape

/-- Two runs with working sets of the same plain form take them alike. -/
theorem Cursor.alike_takeEverything_of_twins
    (hconsumed : c.Expected (.evaluation Expr.everythingName 0 .consumed)) :
    Eval.Alike c B c.Admits takeEverything takeEverything := by
  rintro ⟨σ, w⟩ ⟨σ', w'⟩ hs
  obtain ⟨hplain, hcarried⟩ := (Comparison.beside_iff_of_twins htwins).mp hs.workingSets
  have hjoined : c.sharing.Joined := by
    rw [htwins]
    trivial
  cases w with
  | unset =>
      cases w' <;> cases hplain
      exact .of_unchanged (a := Except.ok (Cursor.values [])) hs (Comparison.admits_values []) []
  | available tape =>
      cases w' with
      | unset => cases hplain
      | taken => cases hplain
      | available tape' =>
          have htape : tape'.plain = tape.plain := WorkingSet.available.inj hplain
          refine ⟨rfl, Comparison.admits_of_joined hjoined _, rfl, rfl, rfl, ?_⟩
          exact (Comparison.beside_iff_of_twins htwins).mpr
            ⟨congrArg WorkingSet.taken htape, hcarried⟩
  | taken tape =>
      cases w' with
      | unset => cases hplain
      | available => cases hplain
      | taken tape' => exact .of_unchanged (a := Except.error _) hs hconsumed []

end twins

/-- Two runs that may read their working sets pull on them alike. -/
theorem Action.alike_pull (hjoined : c.sharing.Joined) :
    Action.Alike c B c.Admissible pull pull := by
  rcases hsharing : c.sharing with _ | _ | ⟨left, right⟩
  · exact alike_pull_of_shared hsharing
  · exact alike_pull_of_twins hsharing
  · rw [hsharing] at hjoined
    cases hjoined

/-- Two runs take their working sets alike if they may read them, if there is none to be taken, and
if both were taken before. -/
theorem Cursor.alike_takeEverything (htakes : c.sharing.TakesAlike)
    (hconsumed : c.Expected (.evaluation Expr.everythingName 0 .consumed)) :
    Eval.Alike c B c.Admits takeEverything takeEverything := by
  rcases hsharing : c.sharing with _ | _ | ⟨left, right⟩
  · exact alike_takeEverything_of_shared hsharing hconsumed
  · exact alike_takeEverything_of_twins hsharing hconsumed
  · intro s s' hs
    have hsets : s.workingSet = left ∧ s'.workingSet = right := by
      have hbeside := hs.workingSets
      unfold Comparison.Beside at hbeside
      rw [hsharing] at hbeside
      exact hbeside
    obtain ⟨rfl, rfl⟩ := hsets
    rw [hsharing] at htakes
    unfold takeEverything
    show c.Meets s s' _
      (match s.workingSet with | .unset => _ | .available tape => _ | .taken _ => _)
      (match s'.workingSet with | .unset => _ | .available tape => _ | .taken _ => _)
    generalize s.workingSet = w, s'.workingSet = w' at htakes
    rcases w with _ | _ | _ <;> rcases w' with _ | _ | _
    case unset.unset =>
      exact .of_unchanged (a := Except.ok (Cursor.values [])) hs (Comparison.admits_values []) []
    case taken.taken => exact .of_unchanged (a := Except.error _) hs hconsumed []
    all_goals cases htakes

/-- Pulling on values or on the working set is alike at cursors that are admitted. -/
theorem Cursor.alike_read {cursor : Cursor} (hc : c.Admits cursor) :
    Action.Alike c B c.Pulled cursor.read cursor.read := by
  have hend : Action.Alike c B c.Pulled (pure (none, cursor)) (pure (none, cursor)) :=
    Action.alike_pure ⟨Comparison.admissible_none, hc⟩
  rcases cursor with (_ | ⟨value, rest⟩) | _ | _ | _ | _ | _
  case values.nil => exact hend
  case values.cons =>
    exact Action.alike_pure ⟨Comparison.admissible_ok value, Comparison.admits_values rest⟩
  case workingSet =>
    rcases hc with hjoined | hreads
    · exact Action.alike_bind (Action.alike_pull hjoined) fun item hitem =>
        Action.alike_pure ⟨hitem, .inl hjoined⟩
    · cases hreads
  all_goals exact hend

/-! ## Runs from the same state -/

section same

variable {B : Bindings.Relation} (hB : ∀ σ, B σ σ)

include hB

/-- Runs that are alike, whatever error may end them, are the same from every state. -/
theorem Action.Alike.eq {Holds : α → Prop} {action action' : Action α}
    (h : Action.Alike (.anyError queries .shared) B Holds action action') : action' = action := by
  funext state
  exact (h state state ⟨hB _, rfl, fun _ _ => trivial⟩).eq_of_shared rfl

/-- Sequences that are alike under a shared working set, with any errors, are the same. -/
theorem Source.Alike.eq {source source' : Source}
    (h : Source.Alike (.anyError queries .shared) B source source') : source' = source := by
  obtain ⟨start, advance⟩ := source
  obtain ⟨start', advance'⟩ := source'
  have hstart : start' = start := Action.Alike.eq hB h.start
  have hadvance : advance' = advance :=
    funext fun cursor => Action.Alike.eq hB (h.advance cursor (.inl trivial))
  rw [hstart, hadvance]

end same

end RecordQuery
