import RecordQuery.Proofs.Eval.Targets

/-!
# Taking the working set

There is one working set, and it can be taken once. Expressions take it by the variable
`everything`, where nothing is bound under that name, and by a call without a target of a query
object that takes sequences: these are the consumers (`Expr.Consumes`).

* `State.offers_of_available`, `State.refuses_of_taken`, `State.offersNothing_of_unset`: the state
  decides what consumers come to. While the working set was not taken, a consumer goes on with all
  of it; once it was taken, every consumer fails and changes nothing; where there is none, consumers
  go on with the empty sequence.
* `State.delivered_of_taken`: a pull on a working set that was taken brings the next item.
* `State.hides_of_bound`: where `everything` is bound, the variable leaves the working set alone.
-/

namespace RecordQuery

/-! ## Pulling -/

/-- What so many pulls leave of a list is the list without as many items. -/
theorem Tape.drop_ofItems (n : Nat) (items : List Item) :
    (ofItems items).drop n = ofItems (items.drop n) := by
  induction n generalizing items with
  | zero => simp
  | succ n ih =>
      rcases items with _ | ⟨item, rest⟩
      · rfl
      · exact ih rest

/-- A pull on what is left of the working set behind a position brings the item at that position, if
there is one, and moves on by one. -/
theorem Action.pull_taken_ofItems (bindings : List (String × Value)) (items : List Item) (n : Nat) :
    pull ⟨bindings, .taken (.ofItems (items.drop n))⟩ =
      ⟨items[n]?, ⟨bindings, .taken (.ofItems (items.drop (n + 1)))⟩,
        if n < items.length then [.pulled] else []⟩ := by
  by_cases h : n < items.length
  · rw [if_pos h, List.getElem?_eq_getElem h, List.drop_eq_getElem_cons h]
    rfl
  · have hle : items.length ≤ n := by omega
    have hle' : items.length ≤ n + 1 := by omega
    rw [if_neg h, List.getElem?_eq_none hle, List.drop_eq_nil_of_le hle,
      List.drop_eq_nil_of_le hle']
    rfl

/-! ## Consumers -/

namespace Expr

variable {ctx : Context} {state final : State} {e : Expr} {goOn : Cursor → Eval Cursor}

/-- The expressions that take the working set when they are evaluated, or opened as a sequence, in
a state. They take it in the second state, since the query object of a call is evaluated first, and
go on with the cursor that they get. -/
inductive Consumes (ctx : Context) (state : State) :
    Expr → State → (Cursor → Eval Cursor) → Prop
  /-- The variable, where nothing is bound under its name. -/
  | var (h : Named.lookup everythingName state.bindings = none) :
    Consumes ctx state everything state pure
  /-- A call without a target of an object that takes sequences. -/
  | call {object : Expr} {name : String}
    (h : ((object.value ctx).run state).value = .ok (.query (.sequence name))) :
    Consumes ctx state (object.query none) ((object.value ctx).run state).state
      (Operator.performOn ctx name none)

/-- A consumer that is opened takes the working set, and goes on. -/
theorem Consumes.run_start (h : Consumes ctx state e final goOn) :
    ∃ trace, (e.source ctx).start.run state =
      ((Cursor.takeEverything >>= goOn).run final).after trace := by
  cases h with
  | var h => exact ⟨[], by rw [run_start_everything_of_unbound h, bind_pure, Outcome.after_nil]⟩
  | @call object name h =>
      refine ⟨((object.value ctx).run state).trace, ?_⟩
      rw [source_query]
      exact Operator.run_queryRef_bind h

/-- A consumer that is evaluated is opened and collected. -/
theorem Consumes.run_value (h : Consumes ctx state e final goOn) :
    (e.value ctx).run state = (Value.list <$> (e.source ctx).collect).run state := by
  cases h with
  | var h =>
      have hvalue : (everything.value ctx).run state =
          (Value.list <$> Source.everything.collect).run state := by
        rw [Expr.value, everything, meaning, map_eq_pure_bind]
        refine (Eval.run_ifBound everythingName _ _ state).trans ?_
        rw [h]
        rfl
      have hadvance : (everything.source ctx).advance = Source.everything.advance :=
        advance_everything ctx
      rw [hvalue, map_eq_pure_bind, map_eq_pure_bind]
      refine Eval.run_bind_congr_left ?_
      unfold Source.collect
      simp only [Source.drain_congr_advance hadvance]
      exact Eval.run_bind_congr_left (run_start_everything_of_unbound h).symm
  | @call object name h =>
      rw [value_query, source_query, Source.collect, map_eq_pure_bind]
      show (Operator.queryRef (object.value ctx) >>= _).run state =
        (Operator.queryRef (object.value ctx) >>= _ >>= _ >>= _).run state
      rw [bind_assoc, bind_assoc]
      refine (Operator.run_queryRef_bind h).trans (.trans ?_ (Operator.run_queryRef_bind h).symm)
      rfl

/-- What stands before a consumer takes the working set leads to later states. -/
theorem Consumes.later (h : Consumes ctx state e final goOn) : state.Later final := by
  cases h with
  | var => exact .refl state
  | @call object => exact object.value_obeys (State.later ctx.queries) state

/-- A consumer that takes the working set first gets all of it. -/
theorem Consumes.run_start_of_available (h : Consumes ctx state e final goOn) {tape : Tape}
    (htape : final.workingSet = .available tape) :
    ∃ trace, (e.source ctx).start.run state =
      ((goOn .workingSet).run { final with workingSet := .taken tape }).after trace := by
  obtain ⟨trace, hstart⟩ := h.run_start
  have htake := Cursor.run_takeEverything_of_available htape
  refine ⟨trace, ?_⟩
  rw [hstart, Eval.run_bind_ok (by rw [htake]), htake, Outcome.after_nil]

/-- Without a working set, a consumer gets the empty sequence. -/
theorem Consumes.run_start_of_unset (h : Consumes ctx state e final goOn)
    (hunset : final.workingSet = .unset) :
    ∃ trace, (e.source ctx).start.run state = ((goOn (.values [])).run final).after trace := by
  obtain ⟨trace, hstart⟩ := h.run_start
  have htake := Cursor.run_takeEverything_of_unset hunset
  refine ⟨trace, ?_⟩
  rw [hstart, Eval.run_bind_ok (by rw [htake]), htake, Outcome.after_nil]

/-- A consumer fails if the working set was taken before, and leaves it as it is. -/
theorem Consumes.run_of_taken (h : Consumes ctx state e final goOn) {tape : Tape}
    (htape : final.workingSet = .taken tape) :
    ∃ trace,
      (e.source ctx).start.run state =
          ⟨.error (.evaluation everythingName 0 .consumed), final, trace⟩ ∧
        (e.value ctx).run state =
          ⟨.error (.evaluation everythingName 0 .consumed), final, trace⟩ := by
  obtain ⟨trace, hstart⟩ := h.run_start
  have htake := Cursor.run_takeEverything_of_taken htape
  have hfails : (e.source ctx).start.run state =
      ⟨.error (.evaluation everythingName 0 .consumed), final, trace⟩ := by
    rw [hstart, Eval.run_bind_error (by rw [htake]), htake]
    simp [Outcome.after]
  refine ⟨trace, hfails, ?_⟩
  rw [h.run_value, Eval.run_map, Source.collect, Eval.run_bind_error (by rw [hfails]), hfails]
  rfl

/-- What a consumer goes on to do leads to later states. -/
theorem Consumes.goOn_obeys (h : Consumes ctx state e final goOn) (cursor : Cursor) :
    Eval.Obeys (State.later ctx.queries) (goOn cursor) := by
  cases h with
  | var => exact Eval.obeys_pure cursor
  | call => exact Operator.obeys_performOn (by rintro _ ⟨⟩) _ cursor

/-- However far a consumer reads the working set, and whether it fails, the working set was taken
by it. -/
theorem Consumes.taken (h : Consumes ctx state e final goOn) {tape : Tape}
    (htape : final.workingSet = .available tape) :
    (∃ n, ((e.source ctx).start.run state).state.workingSet = .taken (tape.drop n)) ∧
      ∃ n, ((e.value ctx).run state).state.workingSet = .taken (tape.drop n) := by
  obtain ⟨trace, hstart⟩ := h.run_start_of_available htape
  obtain ⟨n, hn⟩ : ∃ n, ((e.source ctx).start.run state).state.workingSet =
      .taken (tape.drop n) := by
    rw [hstart, Outcome.after_state]
    exact State.Later.exists_taken (h.goOn_obeys .workingSet _) rfl
  refine ⟨⟨n, hn⟩, ?_⟩
  have hdrained : ((e.source ctx).start.run state).state.Later
      ((e.source ctx).collect.run state).state := by
    unfold Source.collect
    rcases hstart : ((e.source ctx).start.run state).value with error | cursor
    · rw [Eval.run_bind_error hstart]
      exact .refl _
    · rw [Eval.run_bind_ok hstart, Outcome.after_state]
      exact (e.source_obeys (State.later ctx.queries)).drain cursor _
  obtain ⟨m, hm⟩ := hdrained.exists_taken hn
  refine ⟨n + m, ?_⟩
  rw [h.run_value, Eval.run_map, ← Tape.drop_drop]
  exact hm

end Expr

/-! ## What a state has for its consumers -/

namespace State

variable {ctx : Context} {state : State}

/-- Whoever comes first gets all of the working set, which counts as taken from then on, however far
it is read. A consumer may take it already while it evaluates its query object. -/
structure Offers (ctx : Context) (state : State) (tape : Tape) : Prop where
  /-- It is there. -/
  workingSet : state.workingSet = .available tape
  /-- It can be taken from outside. -/
  take : Cursor.takeEverything.run state =
    ⟨.ok .workingSet, { state with workingSet := .taken tape }, []⟩
  /-- An expression that consumes it gets all of it. -/
  consumer : ∀ {e final goOn}, Expr.Consumes ctx state e final goOn →
    final.workingSet = .available tape →
      (∃ trace, (e.source ctx).start.run state =
        ((goOn .workingSet).run { final with workingSet := .taken tape }).after trace) ∧
      (∃ n, ((e.source ctx).start.run state).state.workingSet = .taken (tape.drop n)) ∧
      ∃ n, ((e.value ctx).run state).state.workingSet = .taken (tape.drop n)

/-- Whoever takes the working set is refused, and changes nothing by trying. -/
structure Refuses (ctx : Context) (state : State) : Prop where
  /-- It cannot be taken from outside. -/
  take : Cursor.takeEverything.run state =
    ⟨.error (.evaluation Expr.everythingName 0 .consumed), state, []⟩
  /-- An expression that consumes it fails, opened or evaluated. -/
  consumer : ∀ {e final goOn}, Expr.Consumes ctx state e final goOn → ∃ trace,
    (e.source ctx).start.run state =
        ⟨.error (.evaluation Expr.everythingName 0 .consumed), final, trace⟩ ∧
      (e.value ctx).run state =
        ⟨.error (.evaluation Expr.everythingName 0 .consumed), final, trace⟩

/-- Whoever takes the working set gets the empty sequence, any number of times. -/
structure OffersNothing (ctx : Context) (state : State) : Prop where
  /-- There is no working set. -/
  workingSet : state.workingSet = .unset
  /-- From outside the empty sequence can be taken. -/
  take : Cursor.takeEverything.run state = ⟨.ok (.values []), state, []⟩
  /-- The variable stands for the empty list, if it is not bound. -/
  everything : Named.lookup Expr.everythingName state.bindings = none →
    (Expr.everything.value ctx).run state = ⟨.ok (.list []), state, []⟩
  /-- An expression that consumes the working set gets the empty sequence. -/
  consumer : ∀ {e final goOn}, Expr.Consumes ctx state e final goOn → ∃ trace,
    (e.source ctx).start.run state = ((goOn (.values [])).run state).after trace

/-- The working set was taken, and its items before a position were delivered. Whoever takes it again
is refused. A pull, through whichever sequence, delivers the item at the position, if there is one,
and moves on by one. -/
structure Delivered (ctx : Context) (items : List Item) (position : Nat) (state : State) :
    Prop where
  /-- No more were delivered than there are. -/
  le : position ≤ items.length
  /-- What is left are the other items. -/
  workingSet : state.workingSet = .taken (.ofItems (items.drop position))
  /-- It is not given out again. -/
  refuses : state.Refuses ctx
  /-- The next item is the one at the position. -/
  pull : Action.pull state =
    ⟨items[position]?, ⟨state.bindings, .taken (.ofItems (items.drop (position + 1)))⟩,
      if position < items.length then [.pulled] else []⟩

/-- The variable `everything` is read like any other, and the working set stays what it is. -/
structure Hides (ctx : Context) (value : Value) (state : State) : Prop where
  /-- It stands for a value. -/
  reads : (Expr.everything.value ctx).run state = ⟨.ok value, state, []⟩
  /-- As a sequence it opens the items of the value. -/
  opens : (Expr.everything.source ctx).start.run state = ⟨.ok (.values value.items), state, []⟩

/-- **The first consumer gets everything.** -/
theorem offers_of_available {tape : Tape} (h : state.workingSet = .available tape) :
    state.Offers ctx tape where
  workingSet := h
  take := Cursor.run_takeEverything_of_available h
  consumer hconsumes htape := ⟨hconsumes.run_start_of_available htape, hconsumes.taken htape⟩

/-- **Later consumers get nothing**, however little of the working set was read. -/
theorem refuses_of_taken {tape : Tape} (h : state.workingSet = .taken tape) :
    state.Refuses ctx where
  take := Cursor.run_takeEverything_of_taken h
  consumer hconsumes := by
    obtain ⟨n, hn⟩ := hconsumes.later.exists_taken h
    exact hconsumes.run_of_taken hn

/-- **Items are delivered in order**, once the working set was taken. -/
theorem delivered_of_taken {items : List Item} {position : Nat} (hle : position ≤ items.length)
    (h : state.workingSet = .taken (.ofItems (items.drop position))) :
    state.Delivered ctx items position where
  le := hle
  workingSet := h
  refuses := refuses_of_taken h
  pull := by
    obtain ⟨bindings, w⟩ := state
    obtain rfl : w = .taken (.ofItems (items.drop position)) := h
    exact Action.pull_taken_ofItems bindings items position

/-- **Without a working set every consumer gets the empty sequence.** -/
theorem offersNothing_of_unset (h : state.workingSet = .unset) : state.OffersNothing ctx where
  workingSet := h
  take := Cursor.run_takeEverything_of_unset h
  everything hunbound := by
    have hstart : (Expr.everything.source ctx).start.run state = ⟨.ok (.values []), state, []⟩ := by
      rw [Expr.run_start_everything_of_unbound hunbound, Cursor.run_takeEverything_of_unset h]
    have hread : ∀ rest, (Expr.everything.source ctx).advance (.values rest) =
        Cursor.read (.values rest) := fun rest => by rw [Expr.advance_everything]
    rw [(Expr.Consumes.var hunbound).run_value, Eval.run_map, Source.collect,
      Eval.run_bind_ok (by rw [hstart]), hstart, Outcome.after_nil, Source.drain_values hread]
    rfl
  consumer hconsumes := by
    have hfinal := hconsumes.later.eq_of_unset h
    subst hfinal
    exact hconsumes.run_start_of_unset h

/-- **A binding of its name hides the working set** from the variable. -/
theorem hides_of_bound {value : Value}
    (h : Named.lookup Expr.everythingName state.bindings = some value) :
    state.Hides ctx value where
  reads := by
    rw [Expr.value, Expr.everything, Expr.meaning]
    exact Meaning.run_value_ofVar h
  opens := Expr.run_start_everything_of_bound h

end State

end RecordQuery
