import RecordQuery.Proofs.Eval.Progress

/-!
# Sequences come to an end

Each item that a pull brings lowers the bound of what is left (`Source.Descends`): of the sequence
itself, of what it is made from, and of every filter on it, hence of the sequence of any expression
(`Expr.source_descends`). Tests and lambdas between two pulls never raise that bound, since
evaluation never adds to the working set.

So the fuel of the loops never runs out, and it can be left out of what they compute:

* `Source.Descends.seek_eq`: looking for an item is one pull and, if the item is refused, looking
  further;
* `Source.Descends.consultWithin_congr`: a query object is told of the end when it is found, and not
  when the fuel is gone;
* `Source.Descends.readFrom_eq`: reading is one pull, a look at its item, and reading further.
-/

namespace RecordQuery

variable {β γ : Type}

/-! ## Bounds -/

namespace Exchange

/-- A query object is given no more in all if no more is left of its sequence. -/
theorem total_mono (exchange : Exchange) {left left' : Nat} (h : left ≤ left') :
    exchange.total left ≤ exchange.total left' := by
  unfold total
  split
  · exact Nat.le_refl _
  · exact Nat.add_le_add_left h _

/-- An item that is handed on is one less to come, if the object is given no more in all. -/
theorem bound_handOn_lt {before exchange : Exchange} {width left left' : Nat}
    {answer : Option Item} {item : Item} (hitem : (exchange.handOn width answer).1 = some item)
    (hhanded : exchange.handed = before.handed)
    (htotal : exchange.total left ≤ before.total left') :
    width * ((exchange.handOn width answer).2.total left + 1) -
        (exchange.handOn width answer).2.handed <
      width * (before.total left' + 1) - before.handed := by
  rcases answer with _ | answer
  · cases hitem
  · unfold handOn at hitem ⊢
    dsimp only at hitem ⊢
    split at hitem
    · rename_i hmay
      rw [if_pos hmay]
      have hgiven : exchange.given.length ≤ exchange.total left := Nat.le_add_right _ _
      have hmore : width * (exchange.total left + 1) ≤ width * (before.total left' + 1) :=
        Nat.mul_le_mul_left width (Nat.succ_le_succ htotal)
      have hleft : width * (exchange.given.length + 1) ≤ width * (exchange.total left + 1) :=
        Nat.mul_le_mul_left width (Nat.succ_le_succ hgiven)
      show width * (exchange.total left + 1) - (exchange.handed + 1) < _
      omega
    · cases hitem

end Exchange

/-- Evaluation does not raise the bound of a sequence. -/
theorem Cursor.bound_le_of_later {before after : State} (h : before.Later after)
    (cursor : Cursor) : cursor.bound after ≤ cursor.bound before := by
  induction cursor with
  | values rest => exact Nat.le_refl rest.length
  | workingSet => exact h.remaining_itemCount_le
  | derived inner ih | unseen seen inner ih | atMost left inner ih => exact ih
  | through query width exchange inner ih =>
      have htotal := Nat.succ_le_succ (exchange.total_mono ih)
      exact Nat.sub_le_sub_right (Nat.mul_le_mul_left width htotal) exchange.handed

/-- Each item that is read from values or from the working set lowers the bound. -/
theorem Cursor.bound_read_lt {cursor : Cursor} {state : State} {item : Item}
    (hitem : (cursor.read state).value.1 = some item) :
    (cursor.read state).value.2.bound (cursor.read state).state < cursor.bound state := by
  rcases cursor with rest | _ | _ | _ | _ | _
  case values =>
    rcases rest with _ | ⟨value, rest⟩
    · cases hitem
    · exact Nat.lt_succ_self rest.length
  case workingSet =>
    have hpull : (Action.pull state).value = some item := hitem
    show (Action.pull state).state.remaining.itemCount < state.remaining.itemCount
    unfold Action.pull at hpull ⊢
    split at hpull
    · rename_i trace item' rest hw
      simp [State.remaining, hw, Tape.itemCount]
    · cases hpull
    · cases hpull
  all_goals cases hitem

namespace Source

/-- Each item that a pull brings lowers the bound. -/
def Descends (source : Source) : Prop :=
  ∀ cursor state item, (source.advance cursor state).value.1 = some item →
    (source.advance cursor state).value.2.bound (source.advance cursor state).state <
      cursor.bound state

/-- A sequence of values, or of the working set, descends. -/
theorem descends_of_advance_eq_read {source : Source} (h : source.advance = Cursor.read) :
    source.Descends := by
  intro cursor state item hitem
  rw [h] at hitem ⊢
  exact Cursor.bound_read_lt hitem

end Source

/-- What a query object asks for makes no difference to how many items it handed on. -/
theorem Source.handed_consult {α : Type} (source : Source) (inquiry : Inquiry α)
    (exchange : Exchange) (cursor : Cursor) (state : State) :
    (source.consult inquiry exchange cursor state).value.2.1.handed = exchange.handed := by
  unfold consult
  generalize (if exchange.ended then 0 else cursor.bound state + 1) = fuel, [] = heard
  induction fuel generalizing heard exchange cursor state with
  | zero => rfl
  | succ fuel ih =>
      unfold consultWithin
      rcases inquiry.next heard with trace | ⟨trace, answer⟩
      · dsimp only
        rw [Action.leave_bind_apply, Action.bind_eq_after]
        generalize source.advance cursor state = o
        obtain ⟨⟨_ | item, inner⟩, after, trace'⟩ := o
        · rfl
        · exact ih (exchange.receive item) inner after (item :: heard)
      · rfl

/-! ## Fuel -/

namespace Source

variable {source : Source} (h : source.Descends)

include h

section seek

variable {accept : Item → Action (Option Item)}
  (ha : ∀ item, (accept item).Advances)

include ha

/-- What is looked for is found below the bound. -/
theorem Descends.bound_seekWithin_lt (fuel : Nat) (cursor : Cursor) (state : State) {item : Item}
    (hitem : (source.seekWithin accept fuel cursor state).value.1 = some item) :
    (source.seekWithin accept fuel cursor state).value.2.bound
        (source.seekWithin accept fuel cursor state).state < cursor.bound state := by
  induction fuel generalizing cursor state with
  | zero => cases hitem
  | succ fuel ih =>
      have hdescends := h cursor state
      unfold seekWithin at hitem ⊢
      rw [Action.bind_eq_after] at hitem ⊢
      generalize source.advance cursor state = o at hdescends hitem ⊢
      obtain ⟨⟨pulled, inner⟩, after, trace⟩ := o
      rcases pulled with _ | pulled
      · cases hitem
      · have hlt : inner.bound after < cursor.bound state := hdescends pulled rfl
        have hle := inner.bound_le_of_later (ha pulled after)
        simp only [Outcome.after_value, Outcome.after_state, Action.bind_eq_after] at hitem ⊢
        generalize accept pulled after = o at hle hitem ⊢
        obtain ⟨accepted, after', trace'⟩ := o
        rcases accepted with _ | accepted
        · exact Nat.lt_of_lt_of_le (ih inner after' hitem) (Nat.le_trans hle (Nat.le_of_lt hlt))
        · exact Nat.lt_of_le_of_lt hle hlt

/-- Any fuel above the bound does. -/
theorem Descends.seekWithin_congr {fuel fuel' : Nat} {cursor : Cursor} {state : State}
    (hfuel : cursor.bound state < fuel) (hfuel' : cursor.bound state < fuel') :
    source.seekWithin accept fuel cursor state = source.seekWithin accept fuel' cursor state := by
  induction fuel generalizing fuel' cursor state with
  | zero => exact absurd hfuel (Nat.not_lt_zero _)
  | succ fuel ih =>
      obtain ⟨fuel', rfl⟩ : ∃ n, fuel' = n + 1 := ⟨fuel' - 1, by omega⟩
      have hdescends := h cursor state
      unfold seekWithin
      rw [Action.bind_eq_after, Action.bind_eq_after]
      generalize source.advance cursor state = o at hdescends ⊢
      obtain ⟨⟨pulled, inner⟩, after, trace⟩ := o
      rcases pulled with _ | pulled
      · rfl
      · have hlt : inner.bound after < cursor.bound state := hdescends pulled rfl
        have hle := inner.bound_le_of_later (ha pulled after)
        simp only [Action.bind_eq_after]
        generalize accept pulled after = o at hle ⊢
        obtain ⟨accepted, after', trace'⟩ := o
        rcases accepted with _ | accepted
        · have hrest : inner.bound after' < cursor.bound state := Nat.lt_of_le_of_lt hle hlt
          have hih : source.seekWithin accept fuel inner after' =
              source.seekWithin accept fuel' inner after' := ih (by omega) (by omega)
          simp only [hih]
        · rfl

/-- **Looking for an item, without fuel**: one pull, and looking further if its item is refused. -/
theorem Descends.seek_eq (cursor : Cursor) :
    source.seek accept cursor = (do
      match ← source.advance cursor with
      | (none, cursor) => return (none, cursor)
      | (some item, cursor) =>
        match ← accept item with
        | some item => return (some item, cursor)
        | none => source.seek accept cursor) := by
  funext state
  have hdescends := h cursor state
  unfold seek
  rw [seekWithin, Action.bind_eq_after, Action.bind_eq_after]
  generalize source.advance cursor state = o at hdescends ⊢
  obtain ⟨⟨pulled, inner⟩, after, trace⟩ := o
  rcases pulled with _ | pulled
  · rfl
  · have hlt : inner.bound after < cursor.bound state := hdescends pulled rfl
    have hle := inner.bound_le_of_later (ha pulled after)
    simp only [Action.bind_eq_after]
    generalize accept pulled after = o at hle ⊢
    obtain ⟨accepted, after', trace'⟩ := o
    rcases accepted with _ | accepted
    · have hrest : inner.bound after' < cursor.bound state := Nat.lt_of_le_of_lt hle hlt
      simp only [h.seekWithin_congr ha hrest (Nat.lt_succ_self _)]
    · rfl

variable {cursor inner : Cursor} {state after after' : State} {trace trace' : Trace} {item : Item}

/-- At the end nothing more is looked for. -/
theorem Descends.run_seek_of_end (hpull : source.advance cursor state = ⟨(none, inner), after, trace⟩) :
    source.seek accept cursor state = ⟨(none, inner), after, trace⟩ := by
  rw [h.seek_eq ha, Action.bind_eq_after, hpull]
  exact congrArg (Outcome.mk _ _) (List.append_nil trace)

/-- An item that is accepted is what was looked for. -/
theorem Descends.run_seek_of_accepted {output : Item}
    (hpull : source.advance cursor state = ⟨(some item, inner), after, trace⟩)
    (haccept : accept item after = ⟨some output, after', trace'⟩) :
    source.seek accept cursor state = ⟨(some output, inner), after', trace ++ trace'⟩ := by
  rw [h.seek_eq ha, Action.bind_eq_after, hpull]
  dsimp only
  rw [Action.bind_eq_after, haccept]
  simp [Outcome.after, Action.pure_apply]

/-- Behind an item that is refused, looking goes on. -/
theorem Descends.run_seek_of_refused
    (hpull : source.advance cursor state = ⟨(some item, inner), after, trace⟩)
    (haccept : accept item after = ⟨none, after', trace'⟩) :
    source.seek accept cursor state =
      (source.seek accept inner after').after (trace ++ trace') := by
  rw [h.seek_eq ha cursor, Action.bind_eq_after, hpull]
  dsimp only
  rw [Action.bind_eq_after, haccept]
  simp [Outcome.after]

end seek

section consult

variable {α : Type} (inquiry : Inquiry α)

/-- **Giving a query object what it asks for, without fuel**: any fuel above the bound does, so that
the object is told of the end where it is found. -/
theorem Descends.consultWithin_congr {fuel fuel' : Nat} (heard : List Item) (exchange : Exchange)
    {cursor : Cursor} {state : State} (hfuel : cursor.bound state < fuel)
    (hfuel' : cursor.bound state < fuel') :
    source.consultWithin inquiry fuel heard exchange cursor state =
      source.consultWithin inquiry fuel' heard exchange cursor state := by
  induction fuel generalizing fuel' heard exchange cursor state with
  | zero => exact absurd hfuel (Nat.not_lt_zero _)
  | succ fuel ih =>
      obtain ⟨fuel', rfl⟩ : ∃ n, fuel' = n + 1 := ⟨fuel' - 1, by omega⟩
      unfold consultWithin
      rcases inquiry.next heard with trace | ⟨trace, answer⟩
      · have hdescends := h cursor state
        dsimp only
        rw [Action.leave_bind_apply, Action.leave_bind_apply, Action.bind_eq_after,
          Action.bind_eq_after]
        generalize source.advance cursor state = o at hdescends ⊢
        obtain ⟨⟨pulled, inner⟩, after, trace'⟩ := o
        rcases pulled with _ | item
        · rfl
        · have hlt : inner.bound after < cursor.bound state := hdescends item rfl
          have hih : source.consultWithin inquiry fuel (item :: heard) (exchange.receive item) inner
              after = source.consultWithin inquiry fuel' (item :: heard) (exchange.receive item)
                inner after := ih _ _ (by omega) (by omega)
          simp only [hih]
      · rfl

/-- An item that a query object is given was left before, so that it is given no more in all. -/
theorem Descends.total_consultWithin_le (fuel : Nat) (heard : List Item) (exchange : Exchange)
    (hopen : exchange.ended = false) (cursor : Cursor) (state : State) :
    let o := source.consultWithin inquiry fuel heard exchange cursor state
    o.value.2.1.total (o.value.2.2.bound o.state) ≤ exchange.total (cursor.bound state) := by
  induction fuel generalizing heard exchange cursor state with
  | zero => exact Nat.le_refl _
  | succ fuel ih =>
      unfold consultWithin
      rcases inquiry.next heard with trace | ⟨trace, answer⟩
      · have hdescends := h cursor state
        dsimp only
        rw [Action.leave_bind_apply, Action.bind_eq_after]
        generalize source.advance cursor state = o at hdescends ⊢
        obtain ⟨⟨pulled, inner⟩, after, trace'⟩ := o
        rcases pulled with _ | item
        · exact Nat.add_le_add_left (Nat.zero_le _) exchange.given.length
        · have hlt : inner.bound after < cursor.bound state := hdescends item rfl
          have hreceived : (exchange.receive item).total (inner.bound after) ≤
              exchange.total (cursor.bound state) := by
            simp [Exchange.total, Exchange.receive, hopen]
            omega
          exact Nat.le_trans (ih (item :: heard) (exchange.receive item) hopen inner after)
            hreceived
      · exact Nat.le_refl _

/-- So it is for the fuel that there is. -/
theorem Descends.total_consult_le (exchange : Exchange) (cursor : Cursor) (state : State) :
    let o := source.consult inquiry exchange cursor state
    o.value.2.1.total (o.value.2.2.bound o.state) ≤ exchange.total (cursor.bound state) := by
  unfold consult
  rcases hended : exchange.ended with _ | _
  · exact h.total_consultWithin_le inquiry _ [] exchange hended cursor state
  · exact Nat.le_refl _

end consult

section read

variable {visit : β → Value → Eval (Progress β γ)} {finish : β → γ}
  (hv : ∀ gathered value, (visit gathered value).Advances)

include hv

/-- Any fuel above the bound does. -/
theorem Descends.readWithin_congr {fuel fuel' : Nat} {cursor : Cursor} {state : State}
    (gathered : β) (hfuel : cursor.bound state < fuel) (hfuel' : cursor.bound state < fuel') :
    (source.readWithin visit finish fuel cursor gathered).run state =
      (source.readWithin visit finish fuel' cursor gathered).run state := by
  induction fuel generalizing fuel' cursor state gathered with
  | zero => exact absurd hfuel (Nat.not_lt_zero _)
  | succ fuel ih =>
      obtain ⟨fuel', rfl⟩ : ∃ n, fuel' = n + 1 := ⟨fuel' - 1, by omega⟩
      have hdescends := h cursor state
      unfold readWithin
      rw [Eval.run_ofAction_bind, Eval.run_ofAction_bind]
      generalize source.advance cursor state = o at hdescends ⊢
      obtain ⟨⟨pulled, inner⟩, after, trace⟩ := o
      rcases pulled with _ | e | value
      · rfl
      · rfl
      · have hlt : inner.bound after < cursor.bound state := hdescends _ rfl
        have hle := inner.bound_le_of_later (hv gathered value after)
        have hrest := Nat.lt_of_le_of_lt hle hlt
        rcases hprogress : ((visit gathered value).run after).value with e | gathered' | result
        · simp only [Eval.run_bind_error hprogress]
        · have hih := @ih fuel' inner ((visit gathered value).run after).state gathered'
            (by omega) (by omega)
          simp only [Eval.run_bind_ok hprogress, hih]
        · simp only [Eval.run_bind_ok hprogress]

/-- **Reading, without fuel**: one pull, a look at its item, and reading further. -/
theorem Descends.readFrom_eq (cursor : Cursor) (gathered : β) :
    source.readFrom visit finish cursor gathered = (do
      match ← Eval.ofAction (source.advance cursor) with
      | (none, _) => return finish gathered
      | (some (.error e), _) => throw e
      | (some (.ok value), cursor) =>
        match ← visit gathered value with
        | .more gathered => source.readFrom visit finish cursor gathered
        | .done result => return result) := by
  apply Eval.ext_run
  intro state
  have hdescends := h cursor state
  show (source.readWithin visit finish (cursor.bound state + 1) cursor gathered).run state = _
  unfold readWithin
  rw [Eval.run_ofAction_bind, Eval.run_ofAction_bind]
  generalize source.advance cursor state = o at hdescends ⊢
  obtain ⟨⟨pulled, inner⟩, after, trace⟩ := o
  rcases pulled with _ | e | value
  · rfl
  · rfl
  · have hlt : inner.bound after < cursor.bound state := hdescends _ rfl
    have hle := inner.bound_le_of_later (hv gathered value after)
    have hrest := Nat.lt_of_le_of_lt hle hlt
    rcases hprogress : ((visit gathered value).run after).value with e | gathered' | result
    · simp only [Eval.run_bind_error hprogress]
    · simp only [Eval.run_bind_ok hprogress]
      rw [h.readWithin_congr hv gathered' hrest (Nat.lt_succ_self _)]
      rfl
    · simp only [Eval.run_bind_ok hprogress]

end read

end Source

/-! ## Filters -/

namespace Source

/-- The items of a value come to an end. -/
theorem descends_ofValue (value : Eval Value) : (ofValue value).Descends :=
  descends_of_advance_eq_read rfl

/-- The working set comes to an end. -/
theorem descends_everything : everything.Descends :=
  descends_of_advance_eq_read rfl

section

variable {queries : Registry} {binder : Binder} (hb : Binder.Obeys (State.later queries) binder)

include hb

/-- Looking at an item with a lambda leads to a later state. -/
theorem advances_sift (keep : Bool) (item : Item) :
    (onValues (fun value => do return if (← binder.test value) == keep then some value else none)
      item).Advances :=
  Action.Obeys.advances <| obeys_onValues (fun value =>
    Eval.obeys_bind (hb.test value) fun _ => Eval.obeys_pure _) item

/-- Replacing an item by the result of a lambda leads to a later state. -/
theorem advances_replace (item : Item) :
    (onValues (fun value => some <$> binder.apply value) item).Advances :=
  Action.Obeys.advances <| obeys_onValues (fun value => Eval.obeys_map _ (hb.apply value)) item

end

/-- Looking whether an item was seen is no step. -/
theorem advances_unseen (seen : Value.Seen) (item : Item) :
    (onValues (fun value => pure (if seen.contains value then none else some value))
      item).Advances := by
  intro state
  rcases item with e | value
  · exact .refl state
  · have hstate : (onValues (fun value => pure (if seen.contains value then none else some value))
        (.ok value) state).state = state := by
      cases hc : seen.contains value <;> simp only [onValues, hc] <;> rfl
    rw [hstate]
    exact .refl state

variable {source : Source} (h : source.Descends)

include h

/-- Each item that is found lowers the bound. -/
theorem Descends.bound_seek_lt {accept : Item → Action (Option Item)}
    (ha : ∀ item, (accept item).Advances) (cursor : Cursor) (state : State) {item : Item}
    (hitem : (source.seek accept cursor state).value.1 = some item) :
    (source.seek accept cursor state).value.2.bound (source.seek accept cursor state).state <
      cursor.bound state :=
  h.bound_seekWithin_lt ha _ cursor state hitem

/-- The items that a rule makes of others come to an end with those. -/
theorem Descends.mapping {accept : Item → Action (Option Item)}
    (ha : ∀ item, (accept item).Advances) :
    (source.mapping accept).Descends := by
  intro cursor state item hitem
  rcases cursor with _ | _ | inner | _ | _ | _
  case derived => exact h.bound_seek_lt ha inner state hitem
  all_goals cases hitem

/-- So do the items that a lambda selects or rejects. -/
theorem Descends.sifted {queries : Registry} (keep : Bool) {binder : Binder}
    (hb : Binder.Obeys (State.later queries) binder) : (source.sifted keep binder).Descends :=
  h.mapping (advances_sift hb keep)

/-- So do the results of a lambda. -/
theorem Descends.mapped {queries : Registry} {binder : Binder}
    (hb : Binder.Obeys (State.later queries) binder) : (source.mapped binder).Descends :=
  h.mapping (advances_replace hb)

/-- So do first occurrences. -/
theorem Descends.unique : source.unique.Descends := by
  intro cursor state item hitem
  rcases cursor with _ | _ | _ | ⟨seen, inner⟩ | _ | _
  case unseen =>
    let accept : Item → Action (Option Item) := onValues fun value =>
      pure (if seen.contains value then none else some value)
    have ha : ∀ item, (accept item).Advances := advances_unseen seen
    have hseek := fun found => @Descends.bound_seek_lt source h accept ha inner state found
    change ((source.seek accept inner >>= _ : Action (Option Item × Cursor)) state).value.1 = _
      at hitem
    show ((source.seek accept inner >>= _ : Action (Option Item × Cursor)) state).value.2.bound
      ((source.seek accept inner >>= _ : Action (Option Item × Cursor)) state).state <
        inner.bound state
    rw [Action.bind_eq_after] at hitem ⊢
    generalize source.seek accept inner state = o at hseek hitem ⊢
    obtain ⟨⟨found, inner⟩, after, trace⟩ := o
    rcases found with _ | e | value
    · cases hitem
    · exact hseek _ rfl
    · exact hseek _ rfl
  all_goals cases hitem

/-- So do the first so many items. -/
theorem Descends.limited (count : Eval Nat) : (source.limited count).Descends := by
  intro cursor state item hitem
  rcases cursor with _ | _ | _ | _ | ⟨left, inner⟩ | _
  case atMost =>
    rcases left with _ | left
    · cases hitem
    · exact h inner state item hitem
  all_goals cases hitem

end Source

/-! ## Expressions -/

/-- The sequence that a query object is given comes to an end, if the operand does. -/
theorem Operator.descends_callInput {target : Option Meaning}
    (ht : ∀ m ∈ target, m.source.Descends) : (callInput target).Descends := by
  rcases target with _ | m
  · exact Source.descends_everything
  · exact ht m rfl

/-- So does its answer: a list is finite, and each item that is passed on takes one from the input.
-/
theorem Operator.descends_querySource (ctx : Context) (object : Eval Value)
    {target : Option Meaning} (ht : ∀ m ∈ target, m.source.Descends) :
    (querySource ctx object target).Descends := by
  intro cursor state item hitem
  rcases cursor with _ | _ | _ | _ | _ | ⟨name, width, exchange, input⟩
  case through =>
    rcases hq : ctx.queries.sequence name with perform | ⟨opening, most, pull⟩
    · rw [advance_through_of_collecting hq] at hitem
      cases hitem
    · rw [advance_through_of_streaming hq] at hitem ⊢
      rw [Action.bind_eq_after] at hitem ⊢
      have htotal := (descends_callInput ht).total_consult_le (pull exchange) exchange input state
      have hhanded := (callInput target).handed_consult (pull exchange) exchange input state
      exact Exchange.bound_handOn_lt hitem hhanded htotal
  all_goals exact Cursor.bound_read_lt hitem

namespace Meaning

/-- The sequences of an expression, and of the source that it selects from, descend. -/
structure Descends (m : Meaning) : Prop where
  /-- The sequence of the expression descends. -/
  source : m.source.Descends
  /-- The source of the selection that the expression is descends. -/
  selection : ∀ inner ∈ m.selection?, inner.1.Descends

/-- A value that is read as a sequence comes to an end. -/
theorem descends_ofValue (value : Eval Value) : (ofValue value).Descends :=
  ⟨Source.descends_ofValue value, by rintro _ ⟨⟩⟩

/-- An expression that is a sequence comes to an end with it. -/
theorem descends_ofSource {source : Source} (h : source.Descends) : (ofSource source).Descends :=
  ⟨h, by rintro _ ⟨⟩⟩

/-- A variable comes to an end, be it the working set or a value. -/
theorem descends_ofVar (name : String) : (ofVar name).Descends := by
  unfold ofVar
  split
  · exact ⟨Source.descends_of_advance_eq_read rfl, by rintro _ ⟨⟩⟩
  · exact descends_ofValue _

/-- A lambda that stands for itself comes to an end as its value does. -/
theorem descends_ofLambda (binder : Binder) : (ofLambda binder).Descends :=
  ⟨Source.descends_ofValue _, by rintro _ ⟨⟩⟩

/-- A call of a query object comes to an end, if its target does. -/
theorem descends_query (ctx : Context) (object : Meaning) {target : Option Meaning}
    (ht : ∀ m ∈ target, m.Descends) : (ofCall.query ctx object target).Descends :=
  ⟨Operator.descends_querySource ctx object.value fun m hm => (ht m hm).source, by rintro _ ⟨⟩⟩

/-- Every call comes to an end, if its operands do. -/
theorem descends_ofCall (ctx : Context) (op : Operator) {operands : List Meaning}
    (h : ∀ operand ∈ operands, operand.Descends) : (ofCall ctx op operands).Descends := by
  unfold ofCall
  split
  case h_17 source count => exact descends_ofSource ((h source List.mem_cons_self).source.limited _)
  case h_18 => exact descends_query ctx _ (by rintro _ ⟨⟩)
  case h_19 object target =>
    have ht := h target (List.mem_cons_of_mem _ List.mem_cons_self)
    exact descends_query ctx object (by rintro _ ⟨⟩; exact ht)
  all_goals exact descends_ofValue _

/-- A filter without a lambda comes to an end with its source. -/
theorem descends_ofFilter (kind : FilterKind) {source : Meaning} (h : source.Descends) :
    (ofFilter kind source).Descends := by
  unfold ofFilter
  split
  · refine descends_ofSource ?_
    unfold ofFilter.latest
    split <;> exact Source.descends_ofValue _
  · exact descends_ofSource h.source.unique
  · exact descends_ofSource (Source.descends_ofValue _)

/-- So does a filter with a lambda. -/
theorem descends_ofFilterBy {queries : Registry} (kind : FilterKind) {source : Meaning}
    {binder : Binder} (h : source.Descends) (hb : Binder.Obeys (State.later queries) binder) :
    (ofFilterBy kind source binder).Descends := by
  rcases kind
  case select => exact ⟨h.source.sifted true hb, by rintro _ ⟨⟩; exact h.source⟩
  case reject => exact descends_ofSource (h.source.sifted false hb)
  case collect => exact descends_ofSource (h.source.mapped hb)
  case latest =>
    refine descends_ofSource ?_
    unfold ofFilter.latest
    split <;> exact Source.descends_ofValue _
  case unique => exact descends_ofSource h.source.unique

end Meaning

namespace Expr

mutual

/-- The sequence of every expression descends, by induction over the expression. -/
theorem meaning_descends (ctx : Context) : ∀ e : Expr, (e.meaning ctx).Descends
  | .literal value => Meaning.descends_ofValue (pure value)
  | .var name => Meaning.descends_ofVar name
  | .parameter ref => Meaning.descends_ofValue (Eval.parameter ctx ref)
  | .lambda binder body => Meaning.descends_ofLambda ⟨binder, (meaning ctx body).value⟩
  | .call op operands => Meaning.descends_ofCall ctx op (meanings_descend ctx operands)
  | .filter kind source => Meaning.descends_ofFilter kind (meaning_descends ctx source)
  | .filterBy kind source binder body =>
    have hb : Binder.Obeys (State.later ctx.queries) ⟨binder, (meaning ctx body).value⟩ :=
      body.value_obeys (State.later ctx.queries)
    Meaning.descends_ofFilterBy kind (meaning_descends ctx source) hb

/-- So do several expressions. -/
theorem meanings_descend (ctx : Context) : ∀ es : List Expr, ∀ m ∈ meanings ctx es, m.Descends
  | [] => List.forall_mem_nil _
  | e :: rest => List.forall_mem_cons.mpr ⟨meaning_descends ctx e, meanings_descend ctx rest⟩

end

/-- The sequence of every expression descends, so that reading it needs no fuel. -/
theorem source_descends (ctx : Context) (e : Expr) : (e.source ctx).Descends :=
  (meaning_descends ctx e).source

end Expr

end RecordQuery
