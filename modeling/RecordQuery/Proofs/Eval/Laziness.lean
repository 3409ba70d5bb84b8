import RecordQuery.Proofs.Eval.Progress

/-!
# Evaluations that need the working set, and evaluations that do not

Lazy evaluation does the steps of eager evaluation at other times, so that between two steps of one
part of an expression other parts may run. What can come between is limited by the working set,
which is taken once: of all parts that succeed in a run, at most one takes it.

`Action.Settles` says of a part whether it is that one. A part that is not (`owns = false`) gives
its result from every state that is akin to the one it is told for, whatever became of the working
set, and leaves that state as it is. The one that is gives its result from that very state and
leaves a state that is akin to it. Parts that are put together settle together
(`Eval.Settles.bind`), as long as at most one of them owns the working set.

**Main definition** (`Eval.Refines`): one evaluation refines another if, whenever the first ends
with a value, the second settles on the same value, and it owns the working set only if the first
took it.
-/

namespace RecordQuery

variable {α β : Type} {owns owns' whole : Bool} {s s₁ s' t : State}

/-! ## States -/

namespace State

/-- Two states have the same live bindings, and neither has a working set or both had one. -/
structure Akin (s t : State) : Prop where
  /-- The live bindings are the same. -/
  bindings : t.bindings = s.bindings
  /-- If there is no working set in one state, there is none in the other. -/
  unset : t.workingSet = .unset ↔ s.workingSet = .unset

namespace Akin

/-- A state is akin to itself. -/
theorem refl (s : State) : s.Akin s :=
  ⟨rfl, Iff.rfl⟩

/-- If a state is akin to another one, that one is akin to it. -/
theorem symm (h : s.Akin t) : t.Akin s :=
  ⟨h.bindings.symm, h.unset.symm⟩

/-- What is akin to an akin state is akin. -/
theorem trans (h : s.Akin s₁) (h' : s₁.Akin t) : s.Akin t :=
  ⟨h'.bindings.trans h.bindings, h'.unset.trans h.unset⟩

end Akin

/-- A state that a run which is told for another state can start from: that state itself, if the run
owns the working set, and else any state that is akin to it. -/
structure Within (owns : Bool) (s t : State) : Prop where
  /-- The states are akin. -/
  akin : s.Akin t
  /-- They are the same if the run owns the working set. -/
  eq_of_owns : owns = true → t = s

/-- A run can start from the state that it is told for. -/
theorem Within.refl (owns : Bool) (s : State) : s.Within owns s :=
  ⟨.refl s, fun _ => rfl⟩

/-- A run that owns less can start from more states. -/
theorem Within.mono (h : s.Within whole t) (hle : owns = true → whole = true) :
    s.Within owns t :=
  ⟨h.akin, fun howns => h.eq_of_owns (hle howns)⟩

/-- Two changes of the state that a run can start from are one. -/
theorem Within.trans (h : s.Within owns s₁) (h' : s₁.Within owns t) : s.Within owns t :=
  ⟨h.akin.trans h'.akin, fun howns => (h'.eq_of_owns howns).trans (h.eq_of_owns howns)⟩

/-- What a run did to the state that ended with a value: nothing, or it took the working set. -/
inductive Spends : Bool → State → State → Prop
  /-- The state is as it was. -/
  | nothing (s : State) : Spends false s s
  /-- The working set was taken, and maybe read. -/
  | workingSet (bindings : List (String × Value)) (tape rest : Tape) :
    Spends true ⟨bindings, .available tape⟩ ⟨bindings, .taken rest⟩

namespace Spends

/-- What a run did leaves an akin state. -/
theorem akin (h : s.Spends owns s') : s.Akin s' := by
  cases h with
  | nothing => exact .refl s
  | workingSet bindings tape rest => exact ⟨rfl, by simp⟩

/-- The working set cannot be taken twice. -/
theorem exclusive (h : s.Spends owns s₁) (h' : s₁.Spends owns' s') :
    ¬(owns = true ∧ owns' = true) := by
  rintro ⟨rfl, rfl⟩
  cases h
  cases h'

/-- A run that leaves the state as it was did not take the working set. -/
theorem eq_false (h : s.Spends owns s) : owns = false := by
  cases h
  rfl

/-- Two runs in a row took the working set if one of them did. -/
theorem trans (h : s.Spends owns s₁) (h' : s₁.Spends owns' s') :
    s.Spends (owns || owns') s' := by
  cases h with
  | nothing => exact h'
  | workingSet bindings tape rest => cases h'; exact .workingSet bindings tape rest

/-- Of two runs, one after the other, the second can start where the first left a state that it was
not told for: only the one of them that owns the working set depends on the very state. -/
theorem within (h : s.Spends owns s₁) (h' : s₁.Spends owns' s')
    (hle : owns' = true → whole = true) (ht : s.Within (whole && !owns) t) :
    s₁.Within owns' t := by
  refine ⟨h.akin.symm.trans ht.akin, fun howns' => ?_⟩
  have hother : owns = false := by
    rcases owns with _ | _
    · rfl
    · exact absurd ⟨rfl, howns'⟩ (h.exclusive h')
  subst hother
  cases h
  exact ht.eq_of_owns (by simp [hle howns'])

end Spends

/-- How a cursor and what reads it stand to one another in a whole: at most one of them owns the
working set, and the reader, which is told for one state, can start from another. -/
structure Shares (owns reads whole : Bool) (s t : State) : Prop where
  /-- The cursor is part of the whole. -/
  cursor : owns = true → whole = true
  /-- The reader is part of the whole. -/
  reader : reads = true → whole = true
  /-- They do not both own the working set. -/
  exclusive : ¬(owns = true ∧ reads = true)
  /-- The reader can start from the other state. -/
  within : s.Within reads t

namespace Shares

variable {looks reads : Bool} {t' : State}

/-- After a pull the reader can still start. -/
theorem pull (h : s.Shares owns reads whole t) (ht : t.Within (whole && !owns) t') :
    s.Shares owns reads whole t' := by
  obtain ⟨hcursor, hreader, hexclusive, hwithin⟩ := h
  exact ⟨hcursor, hreader, hexclusive, hwithin.trans (ht.mono (by grind))⟩

/-- The reader looks at an item first. -/
theorem look (h : s.Shares owns (looks || reads) whole t) : s.Within looks t :=
  h.within.mono (by simp +contextual)

/-- If the look owns the working set, the whole does. -/
theorem looks_whole (h : s.Shares owns (looks || reads) whole t) (hlooks : looks = true) :
    whole = true :=
  h.reader (by simp [hlooks])

/-- After the look the cursor can still be pulled on. -/
theorem rest (h : s.Shares owns (looks || reads) whole t) (ht : t.Within (whole && !looks) t') :
    t.Within owns t' := by
  obtain ⟨hcursor, hreader, hexclusive, hwithin⟩ := h
  exact ht.mono (by grind)

/-- After the look the reader goes on. -/
theorem later (h : s.Shares owns (looks || reads) whole t) (hlooks : s.Spends looks s₁)
    (hreads : s₁.Spends reads s') (ht : t.Within (whole && !looks) t') :
    s₁.Shares owns reads whole t' := by
  obtain ⟨hcursor, hreader, hexclusive, hwithin⟩ := h
  have hfound : s.Within (reads && !looks) t' :=
    (hwithin.mono (by grind)).trans (ht.mono (by grind))
  exact ⟨hcursor, by grind, by grind, hlooks.within hreads id hfound⟩

end Shares

end State

/-! ## Settling -/

/-- An outcome that is what it should be, of a run that is told for one state and started from
another. -/
structure Outcome.Settled (owns : Bool) (s t : State) (Post : α → State → Prop) (o : Outcome α) :
    Prop where
  /-- The state afterwards is akin to the one before. -/
  akin : s.Akin o.state
  /-- It is the one before if the run does not own the working set. -/
  unchanged : owns = false → o.state = t
  /-- The result and the state afterwards are as they should be. -/
  post : Post o.value o.state

/-- Events before an outcome make no difference. -/
theorem Outcome.Settled.behind {Post : α → State → Prop} {o : Outcome α}
    (h : o.Settled owns s t Post) (trace : Trace) : (o.after trace).Settled owns s t Post :=
  ⟨h.akin, h.unchanged, h.post⟩

/-- What a run goes on to from where it is settles with it. -/
theorem Outcome.Settled.after {P : α → State → Prop} {Q : β → State → Prop} {o : Outcome α}
    {p : Outcome β} (h : o.Settled owns s t P) (hp : p.Settled owns o.state o.state Q) :
    (p.after o.trace).Settled owns s t Q where
  akin := h.akin.trans hp.akin
  unchanged howns := (hp.unchanged howns).trans (h.unchanged howns)
  post := hp.post

/-- All runs of an action that can come about have outcomes that are what they should be. -/
def Action.Settles (owns : Bool) (s : State) (action : Action α) (Post : α → State → Prop) : Prop :=
  ∀ t, s.Within owns t → (action t).Settled owns s t Post

/-- All runs of an evaluation that can come about end with values that are what they should be. -/
def Eval.Settles (owns : Bool) (s : State) (x : Eval α) (Post : α → State → Prop) : Prop :=
  Action.Settles owns s x fun result t => ∃ a, result = .ok a ∧ Post a t

variable {P Post : α → State → Prop} {Q : β → State → Prop}

namespace Action

variable {action : Action α}

/-- What an action settles on does not depend on which of the states it can start from it is told
for. -/
theorem Settles.within (h : action.Settles owns s Post) (ht : s.Within owns t) :
    action.Settles owns t Post := by
  intro u hu
  obtain ⟨hakin, hunchanged, hpost⟩ := h u (ht.trans hu)
  exact ⟨ht.akin.symm.trans hakin, hunchanged, hpost⟩

/-- What does not need the working set can be part of what does. -/
theorem Settles.weaken (h : action.Settles owns s Post) (hle : owns = true → whole = true) :
    action.Settles whole s Post := by
  intro t ht
  obtain ⟨hakin, hunchanged, hpost⟩ := h t (ht.mono hle)
  exact ⟨hakin, fun hwhole => hunchanged (by cases owns <;> simp_all), hpost⟩

/-- An action settles on less if it settles on more. -/
theorem Settles.mono (h : action.Settles owns s P) (hpost : ∀ a t, P a t → Post a t) :
    action.Settles owns s Post :=
  fun t ht =>
    have houtcome := h t ht
    ⟨houtcome.akin, houtcome.unchanged, hpost _ _ houtcome.post⟩

/-- A value that is at hand settles, wherever it is asked for. -/
theorem settles_pure {a : α} (h : ∀ t, s.Within owns t → Post a t) :
    (pure a : Action α).Settles owns s Post :=
  fun t ht => ⟨ht.akin, fun _ => rfl, h t ht⟩

/-- A part that owns the working set or not, and what follows it in the whole. What follows finds
the state as it was if it is the one that owns the working set. -/
theorem Settles.bind {next : α → Action β} (hle : owns = true → whole = true)
    (h : action.Settles owns s P)
    (hnext : ∀ a t, s.Within (whole && !owns) t → P a t → (next a).Settles whole t Q) :
    (action >>= next).Settles whole s Q := by
  intro t ht
  obtain ⟨hakin, hunchanged, hpost⟩ := h t (ht.mono hle)
  have hwithin : s.Within (whole && !owns) (action t).state := by
    refine ⟨hakin, fun hothers => ?_⟩
    simp only [Bool.and_eq_true, Bool.not_eq_true'] at hothers
    exact (hunchanged hothers.2).trans (ht.eq_of_owns hothers.1)
  obtain ⟨hakin', hunchanged', hpost'⟩ := hnext _ _ hwithin hpost _ (.refl whole _)
  refine ⟨hakin.trans hakin', fun hwhole => ?_, hpost'⟩
  have howns : owns = false := by cases owns <;> simp_all
  exact (hunchanged' hwhole).trans (hunchanged howns)

end Action

namespace Eval

variable {x : Eval α}

/-- What an evaluation settles on does not depend on which of the states it can start from it is
told for. -/
theorem Settles.within (h : x.Settles owns s Post) (ht : s.Within owns t) :
    x.Settles owns t Post :=
  Action.Settles.within h ht

/-- What does not need the working set can be part of what does. -/
theorem Settles.weaken (h : x.Settles owns s Post) (hle : owns = true → whole = true) :
    x.Settles whole s Post :=
  Action.Settles.weaken h hle

/-- An evaluation settles on less if it settles on more. -/
theorem Settles.mono (h : x.Settles owns s P) (hpost : ∀ a t, P a t → Post a t) :
    x.Settles owns s Post :=
  Action.Settles.mono h fun _ t ⟨a, ha, hp⟩ => ⟨a, ha, hpost a t hp⟩

/-- A result that is at hand settles, wherever it is asked for. -/
theorem settles_pure {a : α} (h : ∀ t, s.Within owns t → Post a t) :
    (pure a : Eval α).Settles owns s Post :=
  fun t ht => ⟨ht.akin, fun _ => rfl, a, rfl, h t ht⟩

/-- So does the report of a result. -/
theorem settles_report {a : α} (trace : Trace) (h : ∀ t, s.Within owns t → Post a t) :
    (report trace (.ok a)).Settles owns s Post :=
  fun t ht => ⟨ht.akin, fun _ => rfl, a, rfl, h t ht⟩

/-- As for actions: a part that owns the working set or not, and what follows it in the whole. -/
theorem Settles.bind {f : α → Eval β} (hle : owns = true → whole = true)
    (h : x.Settles owns s P)
    (hf : ∀ a t, s.Within (whole && !owns) t → P a t → (f a).Settles whole t Q) :
    (x >>= f).Settles whole s Q := by
  refine Action.Settles.bind hle h fun result t ht ⟨a, ha, hp⟩ => ?_
  subst ha
  exact hf a t ht hp

/-- An action settles as an evaluation. -/
theorem settles_ofAction {action : Action α} (h : action.Settles owns s Post) :
    (ofAction action).Settles owns s Post := by
  intro t ht
  have hrun : (ofAction action) t =
      ⟨.ok (action t).value, (action t).state, (action t).trace⟩ := run_ofAction action t
  obtain ⟨hakin, hunchanged, hpost⟩ := h t ht
  rw [hrun]
  exact ⟨hakin, hunchanged, _, rfl, hpost⟩

end Eval

/-! ## Refinement -/

/-- The evaluation ends with a value, in a state. -/
def Eval.Ends (x : Eval α) (s : State) (a : α) (s' : State) : Prop :=
  ∃ trace, x.run s = ⟨.ok a, s', trace⟩

/-- Whenever the first evaluation ends with a value, the second settles on it. It owns the working
set only if the first took it. -/
def Eval.Refines (x x' : Eval α) : Prop :=
  ∀ s a s', x.Ends s a s' →
    ∃ owns, s.Spends owns s' ∧ x'.Settles owns s fun b _ => b = a

namespace Eval

/-- What is at hand ends with that value where it started. -/
theorem ends_pure_iff {a b : α} : (pure a : Eval α).Ends s b s' ↔ b = a ∧ s' = s := by
  constructor
  · rintro ⟨trace, h⟩
    cases h
    exact ⟨rfl, rfl⟩
  · rintro ⟨rfl, rfl⟩
    exact ⟨[], rfl⟩

/-- A failure does not end with a value. -/
theorem not_ends_throw {e : QueryError} {a : α} : ¬(throw e : Eval α).Ends s a s' := by
  rintro ⟨trace, h⟩
  cases h

/-- An action ends with its value. -/
theorem ends_ofAction_iff {action : Action α} {a : α} :
    (ofAction action).Ends s a s' ↔ (action s).value = a ∧ (action s).state = s' := by
  unfold Ends
  rw [run_ofAction]
  constructor
  · rintro ⟨trace, h⟩
    cases h
    exact ⟨rfl, rfl⟩
  · rintro ⟨rfl, rfl⟩
    exact ⟨_, rfl⟩

/-- Where one evaluation after another ends, both end. -/
theorem Ends.bind {x : Eval α} {f : α → Eval β} {b : β} (h : (x >>= f).Ends s b s') :
    ∃ a s₁, x.Ends s a s₁ ∧ (f a).Ends s₁ b s' := by
  obtain ⟨trace, h⟩ := h
  rcases hx : (x.run s).value with e | a
  · rw [run_bind_error hx] at h
    cases h
  · rw [run_bind_ok hx] at h
    refine ⟨a, (x.run s).state, ⟨(x.run s).trace, ?_⟩, ((f a).run (x.run s).state).trace, ?_⟩
    · rw [← hx]
    · generalize (f a).run (x.run s).state = o at h ⊢
      obtain ⟨value, after, trace'⟩ := o
      cases h
      rfl

/-- A function of a result ends where the result does. -/
theorem Ends.map {x : Eval α} {f : α → β} {b : β} (h : (f <$> x).Ends s b s') :
    ∃ a, x.Ends s a s' ∧ b = f a := by
  rw [map_eq_pure_bind] at h
  obtain ⟨a, s₁, hx, hpure⟩ := h.bind
  obtain ⟨rfl, rfl⟩ := ends_pure_iff.mp hpure
  exact ⟨a, hx, rfl⟩

/-- What is at hand refines itself. -/
theorem refines_pure (a : α) : (pure a : Eval α).Refines (pure a) := by
  intro s b s' h
  obtain ⟨rfl, rfl⟩ := ends_pure_iff.mp h
  exact ⟨false, .nothing _, settles_pure fun _ _ => rfl⟩

/-- A failure refines itself, because it never ends with a value. -/
theorem refines_throw (e : QueryError) : (throw e : Eval α).Refines (throw e) :=
  fun _ _ _ h => absurd h not_ends_throw

/-- One after the other, and each refines its counterpart. Only one of them can own the working set,
because the first run took it once. -/
theorem refines_bind {x x' : Eval α} {f f' : α → Eval β} (hx : x.Refines x')
    (hf : ∀ a, (f a).Refines (f' a)) : (x >>= f).Refines (x' >>= f') := by
  intro s b s' h
  obtain ⟨a, s₁, hfirst, hnext⟩ := h.bind
  obtain ⟨owns, hspends, hsettles⟩ := hx s a s₁ hfirst
  obtain ⟨owns', hspends', hsettles'⟩ := hf a s₁ b s' hnext
  refine ⟨owns || owns', hspends.trans hspends', hsettles.bind (by simp +contextual) ?_⟩
  rintro a t ht rfl
  have hwithin := hspends.within hspends' (by simp +contextual) ht
  exact (hsettles'.within hwithin).weaken (by simp +contextual)

/-- Functions of results refine one another if the results do. -/
theorem refines_map {x x' : Eval α} (f : α → β) (hx : x.Refines x') :
    (f <$> x).Refines (f <$> x') := by
  rw [map_eq_pure_bind, map_eq_pure_bind]
  exact refines_bind hx fun a => refines_pure (f a)

/-- An evaluation that looks at the live bindings only, and changes nothing. -/
theorem refines_of_bindings {x : Eval α} (result : List (String × Value) → Except QueryError α)
    (h : ∀ s, ∃ trace, x.run s = ⟨result s.bindings, s, trace⟩) : x.Refines x := by
  rintro s a s' ⟨trace, hrun⟩
  obtain ⟨trace', hs⟩ := h s
  rw [hs] at hrun
  obtain ⟨hresult, rfl⟩ : result s.bindings = .ok a ∧ s = s' := by
    constructor
    · exact congrArg Outcome.value hrun
    · exact congrArg Outcome.state hrun
  refine ⟨false, .nothing s, fun t ht => ?_⟩
  obtain ⟨trace'', hrun'⟩ := h t
  have houtcome : x t = ⟨.ok a, t, trace''⟩ := by
    rw [← hresult, ← ht.akin.bindings]
    exact hrun'
  rw [houtcome]
  exact ⟨ht.akin, fun _ => rfl, a, rfl, rfl⟩

/-- A report refines itself: its events are left out of account. -/
theorem refines_report (trace : Trace) (result : Except QueryError α) :
    (report trace result).Refines (report trace result) :=
  refines_of_bindings (fun _ => result) fun _ => ⟨trace, rfl⟩

/-- Reading a variable refines itself, because it looks at the live bindings only. -/
theorem refines_resolve (name : String) : (resolve name).Refines (resolve name) :=
  refines_of_bindings
    (fun bindings => (Named.lookup name bindings).elim (.error (.variableUnbound name)) .ok)
    fun s => ⟨[], run_resolve name s⟩

/-- So does asking whether a variable is bound. -/
theorem refines_isBound (name : String) : (isBound name).Refines (isBound name) :=
  refines_of_bindings (fun bindings => .ok (Named.lookup name bindings).isSome)
    fun _ => ⟨[], rfl⟩

/-- So does reading a parameter. -/
theorem refines_parameter (ctx : Context) (ref : ParameterRef) :
    (parameter ctx ref).Refines (parameter ctx ref) := by
  unfold parameter
  split
  · exact refines_pure _
  · exact refines_throw _

/-- A binding that is made and released. The states under it are akin if those without it are. -/
theorem refines_withBinding (name : String) (value : Value) {body body' : Eval α}
    (h : body.Refines body') :
    (withBinding name value body).Refines (withBinding name value body') := by
  rintro s a s' ⟨trace, hrun⟩
  let enter (state : State) : State := { state with bindings := (name, value) :: state.bindings }
  let leave (state : State) : State := { state with bindings := state.bindings.tail }
  have hbody : body.Ends (enter s) a (body.run (enter s)).state := by
    refine ⟨(body.run (enter s)).trace, ?_⟩
    have hvalue : (body.run (enter s)).value = .ok a := congrArg Outcome.value hrun
    rw [← hvalue]
  have hfinal : leave (body.run (enter s)).state = s' := congrArg Outcome.state hrun
  obtain ⟨owns, hspends, hsettles⟩ := h _ _ _ hbody
  refine ⟨owns, ?_, fun t ht => ?_⟩
  · rw [← hfinal]
    generalize henter : enter s = u, (body.run (enter s)).state = u' at hspends
    cases hspends with
    | nothing =>
        subst henter
        exact .nothing s
    | workingSet bindings tape rest =>
        obtain ⟨rfl, hset⟩ := State.mk.inj henter
        have hs : s = ⟨s.bindings, .available tape⟩ := by rw [← hset]
        rw [hs]
        exact .workingSet _ tape rest
  · have hwithin : (enter s).Within owns (enter t) := by
      refine ⟨⟨?_, ht.akin.unset⟩, fun howns => by rw [ht.eq_of_owns howns]⟩
      show (name, value) :: t.bindings = (name, value) :: s.bindings
      rw [ht.akin.bindings]
    obtain ⟨hakin, hunchanged, b, hb, rfl⟩ := hsettles _ hwithin
    refine ⟨⟨?_, hakin.unset⟩, fun howns => ?_, _, hb, rfl⟩
    · exact congrArg List.tail hakin.bindings
    · exact congrArg leave (hunchanged howns)

/-- What one evaluation gives, the one that it refines gives as well. -/
theorem Refines.value_eq {x x' : Eval α} (h : x.Refines x') {a : α}
    (ha : (x.run s).value = .ok a) : (x'.run s).value = .ok a := by
  have hends : x.Ends s a (x.run s).state := ⟨(x.run s).trace, by rw [← ha]⟩
  obtain ⟨owns, -, hsettles⟩ := h s a _ hends
  obtain ⟨-, -, b, hb, rfl⟩ := hsettles s (.refl owns s)
  exact hb

end Eval

end RecordQuery
