import RecordQuery.Proofs.Eval.Renaming
import RecordQuery.Proofs.Eval.Streaming

/-!
# What evaluation sees of the live bindings

Evaluation looks at the live bindings through `Eval.resolve` alone, and asks it for the variables
that occur in the expression and for the two that are built in. It does not see how many bindings
there are, in which order they were made, or what is behind the innermost binding of a name.

The induction over the expression is `Expr.meaning_alike`: two runs side by side, whose bindings
agree on the variables that are read. A lambda makes the same binding on either side, so the stacks
agree again under it, however different they are otherwise. Here its outcome is put into one
equation (`Comparison.Meets.eq_withBindings`), and handed on from one pull to any number of them
(`Source.Alike.pulls`).

**Main statement** (`Expr.sees_innermost_bindings`): an expression cannot tell stacks apart under
which its variables resolve alike, such as stacks that differ in bindings that are left over or in
their order.
-/

namespace RecordQuery

variable {α : Type}

/-- The outcome, with other live bindings. -/
def Outcome.withBindings (o : Outcome α) (bindings : List (String × Value)) : Outcome α :=
  ⟨o.value, ⟨bindings, o.state.workingSet⟩, o.trace⟩

/-! ## Runs side by side -/

section alike

variable {queries : Registry} {c : Comparison queries} {B : Bindings.Relation}

/-- Two runs that share their working set differ in the bindings that each keeps, and in nothing
else. -/
theorem Comparison.Meets.eq_withBindings (hshared : c.sharing = .shared) {s s' : State}
    {Holds : α → Prop} {o o' : Outcome α} (h : c.Meets s s' Holds o o') :
    o' = o.withBindings s'.bindings := by
  obtain ⟨value', ⟨bindings', workingSet'⟩, trace'⟩ := o'
  have hvalue : value' = o.value := h.value
  have htrace : trace' = o.trace := h.trace
  have hbindings : bindings' = s'.bindings := h.right
  have hset : workingSet' = o.state.workingSet :=
    ((Comparison.beside_iff_of_shared hshared).mp h.workingSets).1
  rw [hvalue, htrace, hbindings, hset]
  rfl

/-- Sequences that are alike are alike at any number of pulls, since each pull leaves a cursor that
is admitted and states that are related as before. -/
theorem Source.Alike.pulls {source source' : Source} (h : Source.Alike c B source source')
    (calls : Nat) {cursor : Cursor} (hc : c.Admits cursor) :
    Action.Alike c B (fun pulled => c.Admits pulled.2) (source.pulls calls cursor)
      (source'.pulls calls cursor) := by
  induction calls generalizing cursor with
  | zero => exact Action.alike_pure hc
  | succ calls ih =>
      refine Action.alike_bind (h.advance cursor hc) fun ⟨answer, cursor⟩ ⟨_, hc⟩ => ?_
      exact Action.alike_bind (ih hc) fun _ hc => Action.alike_pure hc

end alike

/-- Opens a sequence and pulls on it so many times. -/
def Source.opened (source : Source) (calls : Nat) : Eval (List (Option Item) × Cursor) := do
  Eval.ofAction (source.pulls calls (← source.start))

/-! ## Expressions -/

namespace Expr

/-- The variables that evaluation may ask for: those that occur in the expression, and those that
are built in. -/
def CanRead (e : Expr) (name : String) : Prop :=
  .var name ∈ e.walk ∨ IsBuiltIn name

/-- An expression cannot tell two stacks of live bindings apart. In a context, and with the same
working set in whatever state, its runs have the same result, leave the same working set and the
same events, and each keeps its own stack. -/
structure BlindTo (ctx : Context) (e : Expr) (σ σ' : List (String × Value)) : Prop where
  /-- As a value. -/
  value : ∀ w, (e.value ctx).run ⟨σ', w⟩ = ((e.value ctx).run ⟨σ, w⟩).withBindings σ'
  /-- As a condition. -/
  isTrue : ∀ w, (e.isTrue ctx).run ⟨σ', w⟩ = ((e.isTrue ctx).run ⟨σ, w⟩).withBindings σ'
  /-- As a sequence that is opened and pulled on. -/
  opened : ∀ w calls, ((e.source ctx).opened calls).run ⟨σ', w⟩ =
    (((e.source ctx).opened calls).run ⟨σ, w⟩).withBindings σ'
  /-- As a sequence that is open and pulled on further, whatever happened since to the working
  set. -/
  pulls : ∀ w calls cursor, (e.source ctx).pulls calls cursor ⟨σ', w⟩ =
    ((e.source ctx).pulls calls cursor ⟨σ, w⟩).withBindings σ'
  /-- As a sequence that is open and collected. -/
  drain : ∀ w cursor, ((e.source ctx).drain cursor).run ⟨σ', w⟩ =
    (((e.source ctx).drain cursor).run ⟨σ, w⟩).withBindings σ'

variable {ctx : Context} {e : Expr} {σ σ' : List (String × Value)}

/-- An expression is blind to what does not show in the lookup of its variables. -/
theorem blindTo_of_lookup (h : ∀ name, e.CanRead name →
    Named.lookup name σ' = Named.lookup name σ) : BlindTo ctx e σ σ' := by
  let c : Comparison ctx.queries := .anyError ctx.queries .shared
  let B := Bindings.Agree (.var · ∈ e.walk) []
  have halike : Meaning.Alike c B (e.meaning ctx) (e.meaning ctx) := by
    refine e.meaning_alike [] (Comparison.suits_of_shared ?_ [])
    intro node hnode name hname
    cases node
    case var => cases hname; exact hnode
    all_goals cases hname
  have hrelated : ∀ w, c.Related B ⟨σ, w⟩ ⟨σ', w⟩ :=
    fun w => ⟨⟨h, List.forall_mem_nil _⟩, rfl, fun _ _ => trivial⟩
  have htrue : Eval.Alike c B (fun _ => True) (e.isTrue ctx) (e.isTrue ctx) :=
    Eval.alike_map Value.isTrue halike.value fun _ _ => trivial
  have hopened : ∀ calls, Eval.Alike c B (fun pulled => c.Admits pulled.2)
      ((e.source ctx).opened calls) ((e.source ctx).opened calls) := fun calls =>
    Eval.alike_bind halike.source.start fun _ hc =>
      Eval.alike_ofAction (halike.source.pulls calls hc)
  exact
    { value := fun w => (halike.value _ _ (hrelated w)).eq_withBindings rfl
      isTrue := fun w => (htrue _ _ (hrelated w)).eq_withBindings rfl
      opened := fun w calls => (hopened calls _ _ (hrelated w)).eq_withBindings rfl
      pulls := fun w calls _ =>
        (halike.source.pulls calls (.inl trivial) _ _ (hrelated w)).eq_withBindings rfl
      drain := fun w _ =>
        (halike.source.drain (.inl trivial) _ _ (hrelated w)).eq_withBindings rfl }

/-! ## Stacks that differ -/

/-- Variables that resolve alike are looked up alike. -/
theorem lookup_eq_of_resolve_eq {name : String} {s s' : State}
    (h : ((Eval.resolve name).run s').value = ((Eval.resolve name).run s).value) :
    Named.lookup name s'.bindings = Named.lookup name s.bindings := by
  rw [Eval.run_resolve, Eval.run_resolve] at h
  generalize Named.lookup name s.bindings = found, Named.lookup name s'.bindings = found' at h ⊢
  rcases found with _ | value <;> rcases found' with _ | value'
  case none.none => rfl
  case some.some => exact congrArg some (Except.ok.inj h)
  all_goals cases h

/-- **Evaluation sees the innermost bindings only.** Take any expression and any context.

* If every variable that occurs in the expression, and each one that is built in, resolves alike
  under two stacks of live bindings, to a value or to none, then the expression cannot tell the
  stacks apart.
* So it does not matter which bindings are left over in the midst of a stack, if each is of a name
  that evaluation does not ask for or behind a binding of its own name.
* Nor does the order of a stack matter, as long as the bindings of each name keep theirs. -/
theorem sees_innermost_bindings (ctx : Context) (e : Expr) :
    (∀ σ σ', (∀ name, e.CanRead name → ∀ w,
          ((Eval.resolve name).run ⟨σ', w⟩).value = ((Eval.resolve name).run ⟨σ, w⟩).value) →
        BlindTo ctx e σ σ') ∧
      (∀ before leftover after : List (String × Value),
        (∀ binding ∈ leftover, e.CanRead binding.1 → binding.1 ∈ before.map Prod.fst) →
          BlindTo ctx e (before ++ after) (before ++ leftover ++ after)) ∧
      ∀ σ σ' : List (String × Value),
        (∀ name, σ'.filter (fun binding => binding.1 = name) =
            σ.filter fun binding => binding.1 = name) →
          BlindTo ctx e σ σ' := by
  refine ⟨fun σ σ' h => ?_, fun before leftover after h => ?_, fun σ σ' h => ?_⟩
  · exact blindTo_of_lookup fun name hname => lookup_eq_of_resolve_eq (h name hname .unset)
  · refine blindTo_of_lookup fun name hname => Named.lookup_of_leftover fun binding hmem heq => ?_
    subst heq
    exact h binding hmem hname
  · refine blindTo_of_lookup fun name _ => ?_
    rw [Named.lookup_eq_head?_filter, h name, ← Named.lookup_eq_head?_filter]

/-- A selection of the items that equal a variable of the caller. The other stack has bindings left
over: one of a name that does not occur, and one that is shadowed. -/
theorem sees_innermost_bindings_leftover :
    let e := everything.select ⟨"x", .call .equals [.var "x", .var "y"]⟩
    let σ : List (String × Value) := [("y", .integer 1)]
    let σ' := [("z", .integer 9), ("y", .integer 1), ("y", .integer 2)]
    let w : WorkingSet := .available (.ofItems [.ok (.integer 1), .ok (.integer 2)])
    (∀ name, e.CanRead name → ∀ w,
        ((Eval.resolve name).run ⟨σ', w⟩).value = ((Eval.resolve name).run ⟨σ, w⟩).value) ∧
      (e.value bareContext).run ⟨σ', w⟩ =
        ⟨.ok (.list [.integer 1]), ⟨σ', .taken .spent⟩, [.pulled, .pulled]⟩ ∧
      ((e.source bareContext).opened 1).run ⟨σ', w⟩ =
        ⟨.ok ([some (.ok (.integer 1))], .derived .workingSet),
          ⟨σ', .taken (.ofItems [.ok (.integer 2)])⟩, [.pulled]⟩ := by
  intro e σ σ' w
  have hresolve : ∀ name, e.CanRead name → ∀ w,
      ((Eval.resolve name).run ⟨σ', w⟩).value = ((Eval.resolve name).run ⟨σ, w⟩).value := by
    intro name hname w
    have hne : name ≠ "z" := by
      rintro rfl
      rcases hname with hname | hname
      · simp [e, select, filtered, everything, walk, walkAll, everythingName] at hname
      · revert hname
        decide
    have hlookup : Named.lookup name σ' = Named.lookup name σ := by
      rw [Named.lookup_cons_of_ne hne.symm]
      by_cases hy : "y" = name <;> simp [σ, Named.lookup, hy]
    rw [Eval.run_resolve, Eval.run_resolve, hlookup]
  have hblind := (sees_innermost_bindings bareContext e).1 σ σ' hresolve
  refine ⟨hresolve, (hblind.value w).trans ?_, (hblind.opened w 1).trans ?_⟩
  · subst w σ' σ e
    exact rfl
  · subst w σ' σ e
    exact rfl

end Expr

end RecordQuery
