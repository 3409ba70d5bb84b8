import RecordQuery.Proofs.Eval.Blame
import RecordQuery.Proofs.Eval.Pulls
import RecordQuery.Proofs.Eval.SinglePass
import RecordQuery.Proofs.Expr.Stages
import RecordQuery.Proofs.Value.Fingerprint

/-!
# Streaming filters never read ahead

A chain of streaming filters over the working set is opened without a pull, and every call of `next`
makes as many pulls as its answer needs. That is told by positions in the source: where a stage of
the chain stands before and after a call (`Source.Yields`), which every kind of stage hands on from
the stage below it.

While a chain is pulled on, its lambdas find a working set that was taken. They cannot take it, so
what they answer does not depend on what is left of it (`Lambda.run_apply_of_taken`).

**Main statement** (`Chain.pulls_eq_outputs`): the answers to any number of calls are the outputs of
the chain, and what was read of the source is the shortest prefix that gives them.
-/

namespace RecordQuery

/-! ## Lambdas under a working set that was taken -/

namespace Expr

/-- A run that starts after the working set was taken leaves it alone and does not depend on it. -/
theorem run_value_of_taken (ctx : Context) (e : Expr) (bindings : List (String × Value))
    (tape tape' : Tape) :
    (e.value ctx).run ⟨bindings, .taken tape'⟩ =
      ⟨((e.value ctx).run ⟨bindings, .taken tape⟩).value, ⟨bindings, .taken tape'⟩,
        ((e.value ctx).run ⟨bindings, .taken tape⟩).trace⟩ := by
  let c : Comparison ctx.queries := .anyError ctx.queries (.apart (.taken tape) (.taken tape'))
  have hsuits : c.Suits (fun _ => True) [] e :=
    ⟨fun _ _ _ _ => trivial, fun _ _ _ => trivial, fun _ _ => trivial⟩
  have hrelated : c.Related (Bindings.Agree (fun _ => True) []) ⟨bindings, .taken tape⟩
      ⟨bindings, .taken tape'⟩ :=
    ⟨⟨fun _ _ => rfl, List.forall_mem_nil _⟩, rfl, rfl⟩
  have hmeets := (e.meaning_alike [] hsuits).value _ _ hrelated
  let o := (e.value ctx).run ⟨bindings, .taken tape⟩
  let o' := (e.value ctx).run ⟨bindings, .taken tape'⟩
  have hvalue : o'.value = o.value := hmeets.value
  have htrace : o'.trace = o.trace := hmeets.trace
  have hbindings : o'.state.bindings = bindings := hmeets.right
  have htaken : o'.state.workingSet = .taken tape' := hmeets.workingSets.2
  show o' = ⟨o.value, ⟨bindings, .taken tape'⟩, o.trace⟩
  rw [← hvalue, ← htrace, ← hbindings, ← htaken]

end Expr

namespace Lambda

/-- What lambdas answer under some bindings, after the working set was taken. -/
def answers (ctx : Context) (bindings : List (String × Value)) : Answers :=
  fun lambda value => (((lambda.meaning ctx).apply value).run ⟨bindings, .taken .spent⟩).value

/-- A lambda runs the same wherever the working set stands that was taken, and leaves it there. -/
theorem run_apply_of_taken (ctx : Context) (lambda : Lambda) (value : Value)
    (bindings : List (String × Value)) (tape : Tape) :
    ((lambda.meaning ctx).apply value).run ⟨bindings, .taken tape⟩ =
      ⟨answers ctx bindings lambda value, ⟨bindings, .taken tape⟩,
        (((lambda.meaning ctx).apply value).run ⟨bindings, .taken .spent⟩).trace⟩ := by
  have hbody := lambda.body.run_value_of_taken ctx ((lambda.name, value) :: bindings) .spent tape
  show (let o := (lambda.body.value ctx).run ⟨(lambda.name, value) :: bindings, .taken tape⟩
    (⟨o.value, ⟨o.state.bindings.tail, o.state.workingSet⟩, o.trace⟩ : Outcome _)) = _
  rw [hbody]
  rfl

end Lambda

/-! ## Reading up to a position -/

/-- What a chain is read under: the live bindings, and the items of the working set. -/
structure Site where
  /-- The live bindings. -/
  bindings : List (String × Value)
  /-- The items of the working set. -/
  items : List Item

namespace Site

/-- The state where so many items were read. -/
def stateAt (site : Site) (position : Nat) : State :=
  ⟨site.bindings, .taken (.ofItems (site.items.drop position))⟩

/-- There is nothing to read behind the last item. -/
theorem stateAt_succ_length (site : Site) :
    site.stateAt (site.items.length + 1) = site.stateAt site.items.length := by
  rw [stateAt, stateAt, List.drop_eq_nil_of_le (Nat.le_succ _), List.drop_length]

end Site

variable {α β : Type} {site : Site}

namespace Action

/-- From a position on, the action has a result, and it reads up to another position. -/
def ReadsTo (action : Action α) (site : Site) (start : Nat) (a : α) (stop : Nat) : Prop :=
  ∃ trace, action (site.stateAt start) = ⟨a, site.stateAt stop, trace⟩

/-- A value that is at hand reads nothing. -/
theorem readsTo_pure (site : Site) (position : Nat) (a : α) :
    ReadsTo (pure a) site position a position :=
  ⟨[], rfl⟩

/-- Actions in a row read one after the other. -/
theorem ReadsTo.bind {first : Action α} {next : α → Action β} {p q r : Nat} {a : α} {b : β}
    (h : first.ReadsTo site p a q) (h' : (next a).ReadsTo site q b r) :
    (first >>= next).ReadsTo site p b r := by
  obtain ⟨trace, h⟩ := h
  obtain ⟨trace', h'⟩ := h'
  refine ⟨trace ++ trace', ?_⟩
  rw [bind_eq_after, h, h']
  rfl

/-- From a position on, the action comes to what another one comes to from another position. -/
def Resumes (action action' : Action α) (site : Site) (p q : Nat) : Prop :=
  ∃ trace, action (site.stateAt p) = (action' (site.stateAt q)).after trace

/-- What an action comes to is what it reads up to, if the other one does. -/
theorem Resumes.readsTo {action action' : Action α} {p q r : Nat} {a : α}
    (h : action.Resumes action' site p q) (h' : action'.ReadsTo site q a r) :
    action.ReadsTo site p a r := by
  obtain ⟨trace, h⟩ := h
  obtain ⟨trace', h'⟩ := h'
  exact ⟨trace ++ trace', by rw [h, h']; rfl⟩

end Action

namespace Source

/-! ## Outputs of a source -/

/-- A source that has ended: pulls find the end again, any number of times, and read nothing. -/
def Ended (source : Source) (site : Site) (cursor : Cursor) (position : Nat) : Prop :=
  ∃ AtEnd : Cursor → Prop, AtEnd cursor ∧ ∀ cursor, AtEnd cursor →
    ∃ cursor', AtEnd cursor' ∧ (source.advance cursor).ReadsTo site position (none, cursor') position

/-- From a cursor and a position on, pulls on a source bring outputs, each of which comes about when
the source is read up to its position, and then find the end at the last position. -/
def Yields (source : Source) (site : Site) : Cursor → Nat → List Timed → Nat → Prop
  | cursor, start, [], last => ∃ cursor',
    (source.advance cursor).ReadsTo site start (none, cursor') last ∧
      source.Ended site cursor' last
  | cursor, start, (item, position) :: rest, last => ∃ cursor',
    (source.advance cursor).ReadsTo site start (some item, cursor') position ∧
      source.Yields site cursor' position rest last

/-- A source from which a pull comes to what it comes to from elsewhere has the same outputs. -/
theorem Yields.of_resumes {source : Source} {cursor cursor' : Cursor} {p q last : Nat}
    {outputs : List Timed}
    (h : (source.advance cursor).Resumes (source.advance cursor') site p q)
    (hyields : source.Yields site cursor' q outputs last) :
    source.Yields site cursor p outputs last := by
  rcases outputs with _ | ⟨⟨item, position⟩, outputs⟩
  · obtain ⟨next, hpull, hended⟩ := hyields
    exact ⟨next, h.readsTo hpull, hended⟩
  · obtain ⟨next, hpull, hrest⟩ := hyields
    exact ⟨next, h.readsTo hpull, hrest⟩

/-- The working set brings its items, one at each position. -/
theorem yields_workingSet {source : Source} (h : source.advance = Cursor.read) (site : Site)
    {position : Nat} {rest : List Item} (hrest : site.items.drop position = rest)
    (hposition : position ≤ site.items.length) :
    source.Yields site .workingSet position (rest.zipIdx (position + 1)) site.items.length := by
  have hpull : ∀ position, (source.advance .workingSet).ReadsTo site position
      (site.items[position]?, .workingSet) (position + 1) := by
    intro position
    refine ⟨(if position < site.items.length then [.pulled] else []) ++ [], ?_⟩
    rw [h]
    show (Action.pull >>= fun item => pure (item, Cursor.workingSet)) _ = _
    rw [Action.bind_eq_after, Site.stateAt, Action.pull_taken_ofItems]
    rfl
  have hend : (source.advance .workingSet).ReadsTo site site.items.length (none, .workingSet)
      site.items.length := by
    have hpull := hpull site.items.length
    unfold Action.ReadsTo at hpull ⊢
    rw [List.getElem?_eq_none (Nat.le_refl _)] at hpull
    rw [site.stateAt_succ_length] at hpull
    exact hpull
  induction rest generalizing position with
  | nil =>
      obtain rfl : position = site.items.length :=
        Nat.le_antisymm hposition (List.drop_eq_nil_iff.mp hrest)
      refine ⟨.workingSet, hend, (· = .workingSet), rfl, ?_⟩
      rintro _ rfl
      exact ⟨.workingSet, rfl, hend⟩
  | cons item rest ih =>
      have hlt : position < site.items.length := by
        rcases Nat.lt_or_ge position site.items.length with hlt | hle
        · exact hlt
        · rw [List.drop_eq_nil_of_le hle] at hrest
          cases hrest
      have hitem : site.items[position]? = some item := by
        rw [← List.head?_drop, hrest, List.head?_cons]
      have hlater : site.items.drop (position + 1) = rest := by
        rw [← List.tail_drop, hrest, List.tail_cons]
      refine ⟨.workingSet, ?_, ih hlater hlt⟩
      rw [← hitem]
      exact hpull position

/-! ## Stages -/

section stages

variable {source : Source} (h : source.Descends)

include h

/-- A stage that looks at each item on its own. -/
theorem Yields.mapping {accept : Item → Action (Option Item)}
    (ha : ∀ item, (accept item).Advances) {f : Item → Option Item}
    (hf : ∀ item position, (accept item).ReadsTo site position (f item) position)
    {cursor : Cursor} {start last : Nat} {outputs : List Timed}
    (hyields : source.Yields site cursor start outputs last) :
    (source.mapping accept).Yields site (.derived cursor) start (Timed.filterMap f outputs)
      last := by
  induction outputs generalizing cursor start with
  | nil =>
      obtain ⟨cursor', ⟨trace, hpull⟩, AtEnd, hatEnd, hends⟩ := hyields
      refine ⟨.derived cursor', ⟨trace, run_advance_mapping (h.run_seek_of_end ha hpull)⟩,
        fun cursor => ∃ inner, cursor = .derived inner ∧ AtEnd inner, ⟨cursor', rfl, hatEnd⟩, ?_⟩
      rintro _ ⟨inner, rfl, hinner⟩
      obtain ⟨inner', hinner', trace', hpull⟩ := hends inner hinner
      exact ⟨.derived inner', ⟨inner', rfl, hinner'⟩, trace',
        run_advance_mapping (h.run_seek_of_end ha hpull)⟩
  | cons output outputs ih =>
      obtain ⟨item, position⟩ := output
      obtain ⟨cursor', ⟨trace, hpull⟩, hrest⟩ := hyields
      obtain ⟨trace', haccept⟩ := hf item position
      rcases hitem : f item with _ | output
      · rw [hitem] at haccept
        have hfilter : Timed.filterMap f ((item, position) :: outputs) =
            Timed.filterMap f outputs := by
          simp [Timed.filterMap, hitem]
        have hskip := advance_mapping_of_after (h.run_seek_of_refused ha hpull haccept)
        rw [hfilter]
        exact (ih hrest).of_resumes ⟨trace ++ trace', hskip⟩
      · rw [hitem] at haccept
        have hfilter : Timed.filterMap f ((item, position) :: outputs) =
            (output, position) :: Timed.filterMap f outputs := by
          simp [Timed.filterMap, hitem]
        have hfound := run_advance_mapping (h.run_seek_of_accepted ha hpull haccept)
        rw [hfilter]
        exact ⟨.derived cursor', ⟨trace ++ trace', hfound⟩, ih hrest⟩

/-- The stage that keeps first occurrences, with the values that it saw. -/
theorem Yields.unique {cursor : Cursor} {start last : Nat} {outputs : List Timed}
    (hyields : source.Yields site cursor start outputs last) {seen : Value.Seen}
    {values : List Value} (hseen : seen.Holds values) :
    source.unique.Yields site (.unseen seen cursor) start (Timed.firsts values outputs) last := by
  induction outputs generalizing cursor start seen values with
  | nil =>
      have hend : ∀ value, (none : Option Item) ≠ some (.ok value) := by
        rintro value ⟨⟩
      obtain ⟨cursor', ⟨trace, hpull⟩, AtEnd, hatEnd, hends⟩ := hyields
      refine ⟨.unseen seen cursor', ⟨trace, h.advance_unique_of_not_ok hend hpull⟩,
        fun cursor => ∃ inner, cursor = .unseen seen inner ∧ AtEnd inner,
        ⟨cursor', rfl, hatEnd⟩, ?_⟩
      rintro _ ⟨inner, rfl, hinner⟩
      obtain ⟨inner', hinner', trace', hpull⟩ := hends inner hinner
      exact ⟨.unseen seen inner', ⟨inner', rfl, hinner'⟩, trace',
        h.advance_unique_of_not_ok hend hpull⟩
  | cons output outputs ih =>
      obtain ⟨e | value, position⟩ := output
      · have hfailure : ∀ value, some (.error e : Item) ≠ some (.ok value) := by
          rintro value ⟨⟩
        obtain ⟨cursor', ⟨trace, hpull⟩, hrest⟩ := hyields
        exact ⟨.unseen seen cursor', ⟨trace, h.advance_unique_of_not_ok hfailure hpull⟩,
          ih hrest hseen⟩
      · obtain ⟨cursor', ⟨trace, hpull⟩, hrest⟩ := hyields
        rw [Timed.firsts, ← hseen value]
        split
        · rename_i hknown
          exact (ih hrest hseen).of_resumes ⟨trace, h.advance_unique_of_known hknown hpull⟩
        · rename_i hnew
          rw [Bool.not_eq_true] at hnew
          exact ⟨.unseen (seen.insert value) cursor',
            ⟨trace, h.advance_unique_of_new hnew hpull⟩, ih hrest (hseen.insert value)⟩

omit h

/-- The stage that keeps the first items. Where it has them, it stops pulling. -/
theorem Yields.limited {cursor : Cursor} {start last : Nat} {outputs : List Timed}
    (hyields : source.Yields site cursor start outputs last) (count : Eval Nat) (left : Nat) :
    (source.limited count).Yields site (.atMost left cursor) start (outputs.take left)
      (Timed.positionAfter start left outputs last) := by
  induction left generalizing cursor start outputs with
  | zero =>
      refine ⟨.atMost 0 cursor, Action.readsTo_pure _ _ _, (· = .atMost 0 cursor), rfl, ?_⟩
      rintro _ rfl
      exact ⟨.atMost 0 cursor, rfl, Action.readsTo_pure _ _ _⟩
  | succ left ih =>
      rcases outputs with _ | ⟨⟨item, position⟩, outputs⟩
      · obtain ⟨cursor', hpull, AtEnd, hatEnd, hends⟩ := hyields
        refine ⟨.atMost left cursor', hpull.bind (Action.readsTo_pure _ _ _),
          fun cursor => ∃ left inner, cursor = .atMost left inner ∧ AtEnd inner,
          ⟨left, cursor', rfl, hatEnd⟩, ?_⟩
        rintro _ ⟨left, inner, rfl, hinner⟩
        rcases left with _ | left
        · exact ⟨.atMost 0 inner, ⟨0, inner, rfl, hinner⟩, Action.readsTo_pure _ _ _⟩
        · obtain ⟨inner', hinner', hpull⟩ := hends inner hinner
          exact ⟨.atMost left inner', ⟨left, inner', rfl, hinner'⟩,
            hpull.bind (Action.readsTo_pure _ _ _)⟩
      · obtain ⟨cursor', hpull, hrest⟩ := hyields
        exact ⟨.atMost left cursor', hpull.bind (Action.readsTo_pure _ _ _), ih hrest⟩

end stages

end Source

/-! ## Stages with lambdas -/

/-- The item that comes of looking at a value, if one does. -/
def Item.ofResult : Except QueryError (Option Value) → Option Item
  | .ok (some value) => some (.ok value)
  | .ok none => none
  | .error e => some (.error e)

namespace Source

variable {ctx : Context} {source : Source} (h : source.Descends) (lambda : Lambda)
  {cursor : Cursor} {start last : Nat} {outputs : List Timed}
  (hyields : source.Yields site cursor start outputs last)

/-- What is made of a value, told from the result of a step that reads nothing. -/
theorem readsTo_onValues (accept : Value → Eval (Option Value)) {value : Value} {position : Nat}
    {result : Except QueryError (Option Value)}
    (haccept : ∃ trace, (accept value).run (site.stateAt position) =
      ⟨result, site.stateAt position, trace⟩) :
    (onValues accept (.ok value)).ReadsTo site position (Item.ofResult result) position := by
  have hrun : Action.ReadsTo (accept value).run site position result position := haccept
  refine hrun.bind ?_
  rcases result with e | _ | value <;> exact Action.readsTo_pure _ _ _

/-- A value that is looked at by a lambda, and passes as the answer says. -/
theorem readsTo_sift (keep : Bool) (item : Item) (position : Nat) :
    (onValues (fun value => do
        return if (← (lambda.meaning ctx).test value) == keep then some value else none)
      item).ReadsTo site position
        (item.sift keep (Lambda.answers ctx site.bindings lambda)) position := by
  rcases item with e | value
  · exact Action.readsTo_pure _ _ _
  · have happly :=
      lambda.run_apply_of_taken ctx value site.bindings (.ofItems (site.items.drop position))
    let accept : Value → Eval (Option Value) := fun value => do
      return if (← (lambda.meaning ctx).test value) == keep then some value else none
    have haccept : ∃ trace, (accept value).run (site.stateAt position) =
        ⟨((Lambda.answers ctx site.bindings lambda value).map Value.isTrue).map
          fun passes => if passes == keep then some value else none,
          site.stateAt position, trace⟩ := by
      rw [show accept value = _ from (map_eq_pure_bind _ _).symm, Eval.run_map, Binder.test,
        Eval.run_map, Site.stateAt, happly]
      exact ⟨_, rfl⟩
    have hsift : Item.sift keep (Lambda.answers ctx site.bindings lambda) (.ok value) =
        Item.ofResult (((Lambda.answers ctx site.bindings lambda value).map Value.isTrue).map
          fun passes => if passes == keep then some value else none) := by
      rw [Item.sift]
      rcases Lambda.answers ctx site.bindings lambda value with e | answer
      · rfl
      · simp only [Except.map]
        split <;> rfl
    rw [hsift]
    exact readsTo_onValues accept haccept

/-- A value that a lambda replaces. -/
theorem readsTo_replace (item : Item) (position : Nat) :
    (onValues (fun value => some <$> (lambda.meaning ctx).apply value) item).ReadsTo site position
      (item.replace (Lambda.answers ctx site.bindings lambda)) position := by
  rcases item with e | value
  · exact Action.readsTo_pure _ _ _
  · have happly :=
      lambda.run_apply_of_taken ctx value site.bindings (.ofItems (site.items.drop position))
    let accept : Value → Eval (Option Value) := fun value =>
      some <$> (lambda.meaning ctx).apply value
    have haccept : ∃ trace, (accept value).run (site.stateAt position) =
        ⟨(Lambda.answers ctx site.bindings lambda value).map some, site.stateAt position,
          trace⟩ := by
      rw [show accept value = _ from rfl, Eval.run_map, Site.stateAt, happly]
      exact ⟨_, rfl⟩
    have hreplace : Item.replace (Lambda.answers ctx site.bindings lambda) (.ok value) =
        Item.ofResult ((Lambda.answers ctx site.bindings lambda value).map some) := by
      rw [Item.replace]
      rcases Lambda.answers ctx site.bindings lambda value with e | answer <;> rfl
    rw [hreplace]
    exact readsTo_onValues accept haccept

end Source

/-! ## Chains -/

/-- The filter that a stage is, on a source. -/
def Stage.filter (ctx : Context) (source : Source) : Stage → Source
  | .select condition => source.sifted true (condition.meaning ctx)
  | .reject condition => source.sifted false (condition.meaning ctx)
  | .collect result => source.mapped (result.meaning ctx)
  | .unique _ => source.unique
  | .limit count _ => source.limited (Operator.limitCount (pure (.integer count)))

/-- A stage of a chain, as an expression, is its filter. -/
theorem Stage.source_expr (ctx : Context) (source : Expr) (stage : Stage) :
    (stage.expr source).source ctx = stage.filter ctx (source.source ctx) := by
  cases stage with
  | select | reject | collect =>
      rw [Expr.source, Stage.expr, Expr.filtered, Expr.meaning]
      rfl
  | unique lambda =>
      rcases lambda with _ | lambda <;>
      · rw [Expr.source, Stage.expr, Expr.filtered, Expr.meaning]
        rfl
  | limit count h =>
      rw [Expr.source, Stage.expr, Expr.meaning, Expr.meanings, Expr.meanings, Expr.meanings,
        Expr.meaning]
      rfl

/-- A stage is opened when its source is, without a step of its own, and yields its outputs. -/
theorem Stage.exists_run_start {ctx : Context} {source : Source} (hd : source.Descends)
    {state : State} {cursor : Cursor} {outputs : List Timed} {last : Nat}
    (hstart : source.start.run state = ⟨.ok cursor, site.stateAt 0, []⟩)
    (hyields : source.Yields site cursor 0 outputs last) (stage : Stage) :
    ∃ cursor', (stage.filter ctx source).start.run state = ⟨.ok cursor', site.stateAt 0, []⟩ ∧
      (stage.filter ctx source).Yields site cursor' 0
        (stage.timed (Lambda.answers ctx site.bindings) outputs) (stage.last outputs last) := by
  have hmap : ∀ f : Cursor → Cursor,
      (f <$> source.start).run state = ⟨.ok (f cursor), site.stateAt 0, []⟩ := by
    intro f
    rw [Eval.run_map, hstart]
    rfl
  have hlambda : ∀ lambda : Lambda,
      Binder.Obeys (State.later ctx.queries) (lambda.meaning ctx) :=
    fun lambda => lambda.meaning_obeys (State.later ctx.queries)
  cases stage with
  | select condition | reject condition =>
      exact ⟨.derived cursor, hmap _, hyields.mapping hd
        (Source.advances_sift (hlambda condition) _) (Source.readsTo_sift condition _)⟩
  | collect result =>
      exact ⟨.derived cursor, hmap _, hyields.mapping hd
        (Source.advances_replace (hlambda result)) (Source.readsTo_replace result)⟩
  | unique lambda => exact ⟨.unseen .empty cursor, hmap _, hyields.unique hd Value.Seen.holds_empty⟩
  | limit count h =>
      refine ⟨.atMost count.toInt.toNat cursor, ?_, hyields.limited _ _⟩
      rw [Stage.filter, Operator.limitCount_pure h, Source.start_limited_pure]
      exact hmap _

namespace Chain

/-- A chain is opened without a pull, and yields its outputs. -/
theorem exists_run_start (ctx : Context) (site : Site)
    (h : Named.lookup Expr.everythingName site.bindings = none) (stages : List Stage) :
    ∃ cursor, ((expr stages).source ctx).start.run
          ⟨site.bindings, .available (.ofItems site.items)⟩ = ⟨.ok cursor, site.stateAt 0, []⟩ ∧
      ((expr stages).source ctx).Yields site cursor 0
        (timed (Lambda.answers ctx site.bindings) stages site.items)
        (last (Lambda.answers ctx site.bindings) stages site.items) := by
  induction stages with
  | nil =>
      refine ⟨.workingSet, ?_,
        Source.yields_workingSet (Expr.advance_everything ctx) site rfl (Nat.zero_le _)⟩
      exact Expr.run_start_everything_of_available h _
  | cons stage inner ih =>
      obtain ⟨cursor, hstart, hyields⟩ := ih
      rw [expr, Stage.source_expr]
      exact Stage.exists_run_start ((expr inner).source_descends ctx) hstart hyields stage

end Chain

/-! ## Calls of `next` -/

namespace Source

/-- The answers to so many calls of `next`, and the cursor after them. -/
def pulls (source : Source) : Nat → Cursor → Action (List (Option Item) × Cursor)
  | 0, cursor => pure ([], cursor)
  | calls + 1, cursor => do
    let (answer, cursor) ← source.advance cursor
    let (answers, cursor) ← source.pulls calls cursor
    return (answer :: answers, cursor)

variable {source : Source} {cursor : Cursor}

/-- Behind the end every call of `next` finds the end. -/
theorem Ended.pulls {position : Nat} (h : source.Ended site cursor position) (calls : Nat) :
    ∃ cursor', (source.pulls calls cursor).ReadsTo site position
      (List.replicate calls none, cursor') position := by
  obtain ⟨AtEnd, hatEnd, hends⟩ := h
  induction calls generalizing cursor with
  | zero => exact ⟨cursor, Action.readsTo_pure _ _ _⟩
  | succ calls ih =>
      obtain ⟨inner, hinner, hpull⟩ := hends cursor hatEnd
      obtain ⟨cursor', hrest⟩ := ih hinner
      exact ⟨cursor', hpull.bind (hrest.bind (Action.readsTo_pure _ _ _))⟩

/-- Calls bring the outputs, then the end, and read up to where the outputs came about. -/
theorem Yields.pulls {start last : Nat} {outputs : List Timed}
    (h : source.Yields site cursor start outputs last) (calls : Nat) :
    ∃ cursor', (source.pulls calls cursor).ReadsTo site start
      (((outputs.map Prod.fst).map some).take calls ++
        List.replicate (calls - outputs.length) none, cursor')
      (Timed.positionAfter start calls outputs last) := by
  induction calls generalizing cursor start outputs with
  | zero =>
      refine ⟨cursor, ?_⟩
      rw [List.take_zero, Nat.zero_sub, List.replicate_zero, List.nil_append]
      exact Action.readsTo_pure _ _ _
  | succ calls ih =>
      rcases outputs with _ | ⟨⟨item, position⟩, outputs⟩
      · obtain ⟨inner, hpull, hended⟩ := h
        obtain ⟨cursor', hrest⟩ := hended.pulls calls
        exact ⟨cursor', hpull.bind (hrest.bind (Action.readsTo_pure _ _ _))⟩
      · obtain ⟨inner, hpull, hyields⟩ := h
        obtain ⟨cursor', hrest⟩ := ih hyields
        rw [List.length_cons, Nat.add_sub_add_right]
        exact ⟨cursor', hpull.bind (hrest.bind (Action.readsTo_pure _ _ _))⟩

end Source

namespace Chain

/-- **Streaming filters never read ahead.** Take a chain of any stages, over a working set of any
items, failures included, in any context and under any bindings that leave `everything` alone.

* Opening the chain pulls nothing.
* The answers to any number of calls of `next` are the outputs of the chain, failures included, and
  then the end, again and again.
* After so many calls as there are outputs, or fewer, what was read of the source is the shortest
  prefix that gives so many outputs.
* After any number of calls, no more was read than a limit in the chain needs for its outputs. -/
theorem pulls_eq_outputs (ctx : Context) (stages : List Stage) (bindings : List (String × Value))
    (items : List Item) (h : Named.lookup Expr.everythingName bindings = none) :
    let source := (expr stages).source ctx
    let answer := Lambda.answers ctx bindings
    let all := outputs answer stages items
    ∃ cursor,
      source.start.run ⟨bindings, .available (.ofItems items)⟩ =
          ⟨.ok cursor, ⟨bindings, .taken (.ofItems items)⟩, []⟩ ∧
        ∀ calls, ∃ position cursor' trace,
          source.pulls calls cursor ⟨bindings, .taken (.ofItems items)⟩ =
              ⟨((all.map some).take calls ++ List.replicate (calls - all.length) none, cursor'),
                ⟨bindings, .taken (.ofItems (items.drop position))⟩, trace⟩ ∧
            (calls ≤ all.length →
              calls ≤ (outputs answer stages (items.take position)).length ∧
                ∀ j, calls ≤ (outputs answer stages (items.take j)).length → position ≤ j) ∧
            ∀ outer count hcount inner, stages = outer ++ .limit count hcount :: inner →
              ∀ j, count.toInt.toNat ≤ (outputs answer inner (items.take j)).length →
                position ≤ j := by
  intro source answer all
  let site : Site := ⟨bindings, items⟩
  obtain ⟨cursor, hstart, hyields⟩ := exists_run_start ctx site h stages
  refine ⟨cursor, hstart, fun calls => ?_⟩
  obtain ⟨cursor', trace, hpulls⟩ := hyields.pulls calls
  rw [map_fst_timed, length_timed] at hpulls
  refine ⟨_, cursor', trace, hpulls, fun hcalls => ?_, ?_⟩
  · have hshortest := le_length_outputs_iff answer hcalls (last answer stages items)
    exact ⟨(hshortest _).mpr (Nat.le_refl _), fun j => (hshortest j).mp⟩
  · rintro outer count hcount inner rfl j hj
    obtain ⟨houtputs, hlast⟩ := timed_le_of_limit answer hcount hj outer
    exact Timed.positionAfter_le houtputs (Nat.zero_le j) hlast calls

/-- The first two of the distinct items of 1, 1, a failure and 2 are read from the first three. -/
theorem pulls_eq_outputs_limit_unique :
    let source := (expr [.limit 2 (by decide), .unique none]).source
      ⟨.none, none, Catalog.queries []⟩
    let failure : QueryError := .evaluation "source" 0 (.reported "unreadable")
    let items : List Item :=
      [.ok (.integer 1), .ok (.integer 1), .error failure, .ok (.integer 2)]
    Named.lookup Expr.everythingName ([] : List (String × Value)) = none ∧
      ∃ cursor cursor' trace,
        source.start.run ⟨[], .available (.ofItems items)⟩ =
            ⟨.ok cursor, ⟨[], .taken (.ofItems items)⟩, []⟩ ∧
          source.pulls 2 cursor ⟨[], .taken (.ofItems items)⟩ =
            ⟨([some (.ok (.integer 1)), some (.error failure)], cursor'),
              ⟨[], .taken (.ofItems [.ok (.integer 2)])⟩, trace⟩ := by
  intro source failure items
  refine ⟨rfl, ?_⟩
  obtain ⟨cursor, hstart, hcalls⟩ :=
    pulls_eq_outputs ⟨.none, none, Catalog.queries []⟩ [.limit 2 (by decide), .unique none] [] items rfl
  obtain ⟨position, cursor', trace, hpulls, hshortest, -⟩ := hcalls 2
  obtain ⟨henough, hleast⟩ := hshortest (by decide +kernel)
  have hposition : position = 3 := by
    have hle : position ≤ 3 := hleast 3 (by decide +kernel)
    obtain rfl | rfl | rfl | rfl : position = 0 ∨ position = 1 ∨ position = 2 ∨ position = 3 := by
      omega
    · exact absurd henough (by decide +kernel)
    · exact absurd henough (by decide +kernel)
    · exact absurd henough (by decide +kernel)
    · rfl
  subst hposition
  exact ⟨cursor, cursor', trace, hstart, hpulls⟩

end Chain

end RecordQuery
