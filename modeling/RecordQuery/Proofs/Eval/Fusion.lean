import RecordQuery.Proofs.Eval.Pulls

/-!
# Fusion: a filter tried while its source is read

Reading a filtered sequence and reading its source with the filter tried inline interleave pulls,
lambdas and failures in the same way (`Source.Descends.readFrom_mapping`). A filtered sequence looks
for its next item in a loop of its own, so the two readings take their pulls in different loops;
they are compared step by step, by induction on the bound of what is left.

**Main statement** (`Expr.latest_select_eq`): `latest` over a selection, which tries the selection's
lambda while it groups, means the same as `latest` over the sequence that the selection gives, and
without a lambda of its own the same as `latest` over the list that the selection gives. *The same*
is equality of results, of states afterwards and of traces, from every state and in every context.
-/

namespace RecordQuery

variable {α β γ : Type} {queries : Registry}

namespace Source

/-- The outcome of trying a value, told from the outcome of what tries it. -/
theorem onValues_ok (accept : Value → Eval (Option Value)) (value : Value) (state : State) :
    onValues accept (.ok value) state =
      ⟨match ((accept value).run state).value with
        | .ok (some value) => some (.ok value)
        | .ok none => none
        | .error e => some (.error e),
      ((accept value).run state).state, ((accept value).run state).trace⟩ := by
  show Outcome.after ((accept value).run state).trace _ = _
  rcases ((accept value).run state).value with e | _ | value <;>
    exact congrArg (Outcome.mk _ _) (List.append_nil _)

/-- Trying a value, told apart by what becomes of it. -/
theorem ofAction_onValues_bind (accept : Value → Eval (Option Value)) (value : Value)
    (dropped : Eval β) (kept : Value → Eval β) :
    (do
      match ← Eval.ofAction (onValues accept (.ok value)) with
      | none => dropped
      | some (.error e) => throw e
      | some (.ok value) => kept value) =
    (do
      match ← accept value with
      | none => dropped
      | some value => kept value) := by
  apply Eval.ext_run
  intro state
  rw [Eval.run_ofAction_bind, onValues_ok]
  rcases h : ((accept value).run state).value with e | _ | value
  · rw [Eval.run_bind_error h, Eval.run_throw]
    simp [Outcome.after]
  · rw [Eval.run_bind_ok h]
  · rw [Eval.run_bind_ok h]

variable {source : Source} (h : source.Descends) {accept : Value → Eval (Option Value)}
  (ha : ∀ value, Eval.Obeys (State.later queries) (accept value))
  {visit : β → Value → Eval (Progress β γ)} {finish : β → γ}
  (hv : ∀ gathered value, Eval.Obeys (State.later queries) (visit gathered value))

include h ha hv

/-- **One step of reading a filtered sequence**: a pull on its source, and the trial of the item. -/
theorem Descends.readFrom_mapping_eq (cursor : Cursor) (gathered : β) :
    (source.mapping (onValues accept)).readFrom visit finish (.derived cursor) gathered = (do
      match ← Eval.ofAction (source.advance cursor) with
      | (none, _) => return finish gathered
      | (some (.error e), _) => throw e
      | (some (.ok value), cursor) =>
        match ← accept value with
        | none =>
          (source.mapping (onValues accept)).readFrom visit finish (.derived cursor) gathered
        | some value =>
          match ← visit gathered value with
          | .more gathered =>
            (source.mapping (onValues accept)).readFrom visit finish (.derived cursor) gathered
          | .done result => return result) := by
  have haccept := fun item => (obeys_onValues (d := State.later queries) ha item).advances
  have hmapping := h.mapping haccept
  have hvisit := fun gathered value => (hv gathered value).advances
  rw [hmapping.readFrom_eq hvisit]
  rw [advance_mapping_derived, h.seek_eq haccept, Eval.ofAction_bind, Eval.ofAction_bind,
    bind_assoc, bind_assoc]
  congr 1
  funext pulled
  obtain ⟨item, inner⟩ := pulled
  rcases item with _ | e | value
  · rfl
  · rfl
  · dsimp only
    rw [← ofAction_onValues_bind accept value, Eval.ofAction_bind, bind_assoc]
    congr 1
    funext accepted
    rcases accepted with _ | e | value
    · dsimp only
      rw [hmapping.readFrom_eq hvisit, advance_mapping_derived, Eval.ofAction_bind, bind_assoc]
    · rfl
    · rfl

/-- **Reading a filtered sequence is reading its source** with the filter tried on each value
inline. By induction on the bound of what is left: either reading goes one pull further, and every
evaluation on the way, the filter's and the reader's, leaves the bound lowered. -/
theorem Descends.readFrom_mapping (cursor : Cursor) (gathered : β) :
    (source.mapping (onValues accept)).readFrom visit finish (.derived cursor) gathered =
      source.readFrom (fun gathered value => do
        match ← accept value with
        | none => return .more gathered
        | some value => visit gathered value) finish cursor gathered := by
  have hinline : ∀ gathered value, Eval.Obeys (State.later queries) (do
      match ← accept value with
      | none => return Progress.more gathered
      | some value => visit gathered value) := by
    intro gathered value
    refine Eval.obeys_bind (ha value) fun accepted => ?_
    rcases accepted with _ | value
    · exact Eval.obeys_pure _
    · exact hv gathered value
  apply Eval.ext_run
  intro state
  induction hbound : cursor.bound state using Nat.strongRecOn
    generalizing cursor state gathered with
  | ind n ih =>
      rw [h.readFrom_mapping_eq ha hv,
        h.readFrom_eq fun gathered value => (hinline gathered value).advances]
      refine Eval.run_bind_congr fun ⟨item, inner⟩ hpull => ?_
      rw [Eval.run_ofAction] at hpull ⊢
      have hadvance : (source.advance cursor state).value = (item, inner) := Except.ok.inj hpull
      rcases item with _ | e | value
      · rfl
      · rfl
      · have hlt : inner.bound (source.advance cursor state).state < n := by
          have := h cursor state (.ok value) (by rw [hadvance])
          rw [hadvance] at this
          exact hbound ▸ this
        generalize (source.advance cursor state).state = after at hlt ⊢
        dsimp only
        rw [bind_assoc]
        refine Eval.run_bind_congr fun accepted _ => ?_
        have hle := inner.bound_le_of_later (ha value after)
        rcases accepted with _ | value'
        · exact ih _ (Nat.lt_of_le_of_lt hle hlt) inner gathered _ rfl
        · refine Eval.run_bind_congr fun progress _ => ?_
          have hle' := inner.bound_le_of_later (hv gathered value' ((accept value).run after).state)
          rcases progress with gathered' | result
          · exact ih _ (Nat.lt_of_le_of_lt (Nat.le_trans hle' hle) hlt) inner gathered' _ rfl
          · rfl

omit ha in
/-- Reading a selection. -/
theorem Descends.read_sifted {binder : Binder} (hb : Binder.Obeys (State.later queries) binder)
    (gathered : β) :
    (source.sifted true binder).read visit finish gathered =
      source.read (fun gathered value => do
        if ← binder.test value then visit gathered value else return .more gathered)
        finish gathered := by
  have haccept : ∀ value, Eval.Obeys (State.later queries) (do
      return if (← binder.test value) == true then some value else none) :=
    fun value => Eval.obeys_bind (hb.test value) fun _ => Eval.obeys_pure _
  have hvisit : (fun gathered value => (do
      match ← (do return if (← binder.test value) == true then some value else none : Eval _) with
      | none => return .more gathered
      | some value => visit gathered value)) =
      fun gathered value => (do
        if ← binder.test value then visit gathered value else return .more gathered) := by
    funext gathered value
    rw [bind_assoc]
    congr 1
    funext passes
    cases passes <;> rfl
  show (Cursor.derived <$> source.start >>= fun cursor => _) = (source.start >>= fun cursor => _)
  rw [map_eq_pure_bind, bind_assoc]
  congr 1
  funext cursor
  rw [← hvisit]
  exact h.readFrom_mapping haccept hv cursor gathered

omit ha hv in
/-- **Grouping with one more lambda is grouping a selection.** -/
theorem Descends.grouped_cons {binder : Binder} {binders : List Binder}
    (hb : Binder.Obeys (State.later queries) binder)
    (hbs : ∀ binder ∈ binders, Binder.Obeys (State.later queries) binder) :
    source.grouped (binder :: binders) = (source.sifted true binder).grouped binders := by
  unfold grouped
  rw [h.read_sifted (fun winners value => Eval.obeys_bind (Binder.Obeys.testAll hbs value) fun _ =>
    Eval.obeys_pure _) hb]
  congr 1
  funext winners value
  show (Binder.testAll (binder :: binders) value >>= fun passes => _) = _
  rw [Binder.testAll, bind_assoc]
  congr 1
  funext passes
  cases passes <;> rfl

end Source

/-! ## Sequences that were computed before -/

namespace Source

/-- A loop that evaluates nothing on the way is a fold over the values that were seen before and
those that are left. -/
theorem readWithin_pure (source : Source) (step : β → Value → β) (finish : β → γ) (gathered : β)
    (fuel : Nat) (cursor : Cursor) (seen : List Value) :
    source.readWithin (fun gathered value => pure (.more (step gathered value))) finish fuel cursor
        (seen.reverse.foldl step gathered) =
      (fun values => finish (values.foldl step gathered)) <$>
        source.readWithin (fun gathered value => pure (.more (value :: gathered))) List.reverse
          fuel cursor seen := by
  induction fuel generalizing cursor seen with
  | zero => rfl
  | succ fuel ih =>
      rw [readWithin, readWithin, map_bind]
      congr 1
      funext pulled
      obtain ⟨item, inner⟩ := pulled
      rcases item with _ | e | value
      · rfl
      · rfl
      · simp only [pure_bind]
        rw [← ih, List.reverse_cons, List.foldl_append]
        rfl

/-- A reader that evaluates nothing makes of a sequence what it makes of the list of its values. -/
theorem readFrom_pure (source : Source) (step : β → Value → β) (finish : β → γ) (cursor : Cursor)
    (gathered : β) :
    source.readFrom (fun gathered value => pure (.more (step gathered value))) finish cursor
        gathered =
      (fun values => finish (values.foldl step gathered)) <$> source.drain cursor := by
  apply Eval.ext_run
  intro state
  have hwithin := source.readWithin_pure step finish gathered (cursor.bound state + 1) cursor []
  have hrun := congrArg (Eval.run · state) hwithin
  rw [Eval.run_map] at hrun ⊢
  exact hrun

/-- Reading with steps that only compute is listing the values and then computing. -/
theorem read_pure (source : Source) (step : β → Value → β) (finish : β → γ) (gathered : β) :
    source.read (fun gathered value => pure (.more (step gathered value))) finish gathered =
      (fun values => finish (values.foldl step gathered)) <$> source.collect := by
  unfold read collect
  rw [map_bind]
  congr 1
  funext cursor
  exact source.readFrom_pure step finish cursor gathered

/-- Values that are at hand are read without a trace. -/
theorem drain_values {source : Source}
    (h : ∀ rest, source.advance (.values rest) = Cursor.read (.values rest))
    (values : List Value) : source.drain (.values values) = pure values := by
  have hwithin : ∀ (values seen : List Value),
      source.readWithin (fun gathered value => pure (.more (value :: gathered))) List.reverse
        (values.length + 1) (.values values) seen = (pure (seen.reverse ++ values) : Eval _) := by
    intro values
    induction values with
    | nil =>
        intro seen
        rw [readWithin, h, List.append_nil]
        rfl
    | cons value rest ih =>
        intro seen
        rw [readWithin, h]
        have hrest := ih (value :: seen)
        rw [List.reverse_cons, List.append_assoc] at hrest
        exact hrest
  apply Eval.ext_run
  intro state
  exact congrArg (Eval.run · state) (hwithin values [])

/-- The values of a sequence that a value stands for. -/
theorem collect_ofValue (value : Eval Value) :
    (ofValue value).collect = Value.items <$> value := by
  show ((value >>= fun value => pure (Cursor.values value.items)) >>= fun cursor => _) = _
  rw [bind_assoc, map_eq_pure_bind]
  congr 1
  funext value
  exact drain_values (fun _ => rfl) value.items

/-- Listing the greatest versions is grouping. -/
theorem collect_latest (binders : List Binder) (source : Source) :
    (source.latest binders).collect = source.grouped binders := by
  unfold latest
  rw [collect_ofValue, ← comp_map]
  exact id_map _

/-- The greatest versions are opened by grouping. -/
theorem start_latest (binders : List Binder) (source : Source) :
    (source.latest binders).start = Cursor.values <$> source.grouped binders := by
  show (Value.list <$> source.grouped binders >>= fun value => pure (Cursor.values value.items)) = _
  rw [bind_map_left, map_eq_pure_bind]
  rfl

/-- What was grouped is read value by value. -/
theorem advance_latest (binders : List Binder) (source : Source) :
    (source.latest binders).advance = Cursor.read := rfl

/-- Without a lambda, grouping looks at the list of values only. -/
theorem grouped_nil (source : Source) :
    source.grouped [] =
      List.foldl (fun winners value => place value winners) [] <$> source.collect :=
  source.read_pure (fun winners value => place value winners) id []

/-- Without a lambda, it makes no difference to compute the values first. -/
theorem grouped_nil_eq_bind (source : Source) :
    source.grouped [] = (do
      let values ← source.collect
      (ofValue (pure (.list values))).grouped []) := by
  have hlist : ∀ values, (ofValue (pure (.list values))).grouped [] =
      pure (values.foldl (fun winners value => place value winners) []) := by
    intro values
    rw [grouped_nil, collect_ofValue]
    rfl
  simp only [hlist]
  rw [grouped_nil, map_eq_pure_bind]

end Source

namespace Expr

/-- The value of `latest` is the list of what is grouped. -/
theorem value_ofSource_latest (binders : List Binder) (source : Source) :
    (Meaning.ofSource (source.latest binders)).value = Value.list <$> source.grouped binders :=
  congrArg (Value.list <$> ·) (Source.collect_latest binders source)

/-- A selection as a sequence. -/
theorem source_select (ctx : Context) (source : Expr) (condition : Lambda) :
    (source.select condition).source ctx =
      (source.source ctx).sifted true (condition.meaning ctx) := by
  rw [Expr.source, select, filtered, meaning]
  rfl

/-- The value of a selection is the list of what it selects. -/
theorem value_select (ctx : Context) (source : Expr) (condition : Lambda) :
    (source.select condition).value ctx =
      Value.list <$> ((source.select condition).source ctx).collect := by
  rw [Expr.value, Expr.source, select, filtered, meaning]
  rfl

/-- The lambda of a selection is tried before that of the node above, while the source of the
selection is grouped. -/
theorem meaning_latest_select (ctx : Context) (source : Expr) (condition : Lambda)
    (own : Option Lambda) :
    ((source.select condition).filtered .latest own).meaning ctx =
      .ofSource ((source.source ctx).latest
        (condition.meaning ctx :: own.toList.map (Lambda.meaning ctx))) := by
  rcases own with _ | own
  · rw [select, filtered, filtered, meaning, meaning]
    rfl
  · rw [select, filtered, filtered, meaning, meaning]
    rfl

/-- What grouping a literal means. -/
theorem meaning_latest_literal (ctx : Context) (value : Value) :
    (literal value).latest.meaning ctx = .ofSource ((Source.ofValue (pure value)).latest []) := by
  rw [latest, filtered, meaning, meaning]
  rfl

/-- Grouping the source with the lambda of the selection first is grouping the selection. -/
theorem grouped_select (ctx : Context) (source : Expr) (condition : Lambda)
    (lambdas : List Lambda) :
    (source.source ctx).grouped (condition.meaning ctx :: lambdas.map (Lambda.meaning ctx)) =
      ((source.select condition).source ctx).grouped (lambdas.map (Lambda.meaning ctx)) := by
  have hcondition := condition.meaning_obeys (State.later ctx.queries)
  have hlambdas := Lambda.forall_meaning_obeys (State.later ctx.queries) lambdas
  rw [source_select]
  exact (source.source_descends ctx).grouped_cons hcondition hlambdas

/-- Grouping the source with the lambda of the selection is grouping the list of the selection. -/
theorem grouped_select_eq_bind (ctx : Context) (source : Expr) (condition : Lambda) :
    (source.source ctx).grouped [condition.meaning ctx] = (do
      let values ← ((source.select condition).source ctx).collect
      (Source.ofValue (pure (.list values))).grouped []) :=
  (grouped_select ctx source condition []).trans (Source.grouped_nil_eq_bind _)

/-- As a value, `latest` over a selection is `latest` over the list that the selection gives. -/
theorem value_latest_select (ctx : Context) (source : Expr) (condition : Lambda) :
    (source.select condition).latest.value ctx = (do
      let selected ← (source.select condition).value ctx
      (literal selected).latest.value ctx) := by
  have hlatest : (source.select condition).latest.meaning ctx =
      .ofSource ((source.source ctx).latest [condition.meaning ctx]) :=
    meaning_latest_select ctx source condition none
  rw [Expr.value, hlatest, value_ofSource_latest, grouped_select_eq_bind, map_bind, value_select,
    bind_map_left]
  congr 1
  funext values
  rw [Expr.value, meaning_latest_literal, value_ofSource_latest]

/-- As a sequence, `latest` over a selection is `latest` over the list that the selection gives:
opening either does the same, and so does pulling on either. -/
theorem source_latest_select (ctx : Context) (source : Expr) (condition : Lambda) :
    ((source.select condition).latest.source ctx).start = (do
        let selected ← (source.select condition).value ctx
        ((literal selected).latest.source ctx).start) ∧
      ∀ selected, ((source.select condition).latest.source ctx).advance =
        ((literal selected).latest.source ctx).advance := by
  have hlatest : (source.select condition).latest.meaning ctx =
      .ofSource ((source.source ctx).latest [condition.meaning ctx]) :=
    meaning_latest_select ctx source condition none
  refine ⟨?_, fun selected => ?_⟩
  · rw [Expr.source, hlatest, value_select, bind_map_left]
    show ((source.source ctx).latest [condition.meaning ctx]).start = _
    rw [Source.start_latest, grouped_select_eq_bind, map_bind]
    congr 1
    funext values
    rw [Expr.source, meaning_latest_literal]
    exact (Source.start_latest [] _).symm
  · rw [Expr.source, Expr.source, hlatest, meaning_latest_literal]
    show ((source.source ctx).latest [condition.meaning ctx]).advance = _
    rw [Source.advance_latest]
    exact (Source.advance_latest [] (.ofValue (pure selected))).symm

/-- **Fusion cannot be observed.** In every context, `latest` over a selection tries the lambda of
the selection while it groups the source (first equation). It means the same as grouping the
sequence that the selection gives, with the lambda that `latest` has itself, if any (second
equation): its value and its sequence have the same results, states and traces from every state.
Without such a lambda it is also the same to compute the list of the selection first, failing with
its first failure, and to group this list. -/
theorem latest_select_eq (ctx : Context) (source : Expr) (condition : Lambda)
    (own : Option Lambda) :
    ((source.select condition).filtered .latest own).meaning ctx =
        .ofSource ((source.source ctx).latest
          (condition.meaning ctx :: own.toList.map (Lambda.meaning ctx))) ∧
      ((source.select condition).filtered .latest own).meaning ctx =
        .ofSource (((source.select condition).source ctx).latest
          (own.toList.map (Lambda.meaning ctx))) ∧
      (source.select condition).latest.value ctx = (do
        let selected ← (source.select condition).value ctx
        (literal selected).latest.value ctx) ∧
      ((source.select condition).latest.source ctx).start = (do
        let selected ← (source.select condition).value ctx
        ((literal selected).latest.source ctx).start) ∧
      ∀ selected, ((source.select condition).latest.source ctx).advance =
        ((literal selected).latest.source ctx).advance := by
  have hfused := meaning_latest_select ctx source condition own
  obtain ⟨hstart, hadvance⟩ := source_latest_select ctx source condition
  refine ⟨hfused, ?_, value_latest_select ctx source condition, hstart, hadvance⟩
  rw [hfused]
  unfold Source.latest
  rw [grouped_select]

end Expr

end RecordQuery
