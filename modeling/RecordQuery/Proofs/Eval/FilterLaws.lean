import RecordQuery.Proofs.Eval.Quantifiers
import RecordQuery.Proofs.Eval.Repetitions

/-!
# Laws of filters

Two sequences are equivalent if no reader can tell them apart (`Source.Equivalent`), however often
it pulls and whatever it does between two pulls. Filters that are stacked in different ways keep
different cursors, so equivalence is shown by a relation between cursors that pulls keep
(`Source.Bisimulation`):

* `Source.Descends.equivalent_mapping_mapping`: two filters that look at each item on its own are
  one filter, which tries the second where the first lets an item pass;
* `Source.equivalent_limited_limited`: of two limits the smaller counts;
* `Source.Descends.equivalent_unique_unique`: nothing is left to drop for the second `unique`.

**Main statement** (`Expr.filter_laws`): these laws for expressions, with what becomes of lambdas
under `!` and `&&`, and what `unique` makes of a limited sequence.
-/

namespace RecordQuery

variable {α β : Type} {queries : Registry}

namespace Source

/-! ## Equivalent sequences -/

/-- The answers to calls of `next`, before each of which the reader does something of its own. -/
def pullsAmid (source : Source) : List (Action Unit) → Cursor → Action (List (Option Item))
  | [], _ => pure []
  | action :: actions, cursor => do
    action
    let (answer, cursor) ← source.advance cursor
    return answer :: (← source.pullsAmid actions cursor)

/-- What a reader sees who opens a sequence and pulls on it amid actions of its own. -/
def watched (source : Source) (actions : List (Action Unit)) : Eval (List (Option Item)) := do
  let cursor ← source.start
  Eval.ofAction (source.pullsAmid actions cursor)

/-- Two sequences that no reader can tell apart: from every state they come to the same answers or
the same failure, to the same state and to the same events. -/
def Equivalent (source other : Source) : Prop :=
  ∀ actions, source.watched actions = other.watched actions

/-- A relation between cursors of two sources that pulls keep: they have the same answer, state and
events, and lead to related cursors. -/
def Bisimulation (source other : Source) (R : Cursor → Cursor → Prop) : Prop :=
  ∀ cursor cursor', R cursor cursor' → ∀ state, ∃ answer next next' after trace,
    source.advance cursor state = ⟨(answer, next), after, trace⟩ ∧
      other.advance cursor' state = ⟨(answer, next'), after, trace⟩ ∧ R next next'

/-- Readers see the same from cursors that are related, by induction on what they do. -/
theorem Bisimulation.pullsAmid_eq {source other : Source} {R : Cursor → Cursor → Prop}
    (h : source.Bisimulation other R) (actions : List (Action Unit)) {cursor cursor' : Cursor}
    (hR : R cursor cursor') :
    source.pullsAmid actions cursor = other.pullsAmid actions cursor' := by
  induction actions generalizing cursor cursor' with
  | nil => rfl
  | cons action actions ih =>
      rw [pullsAmid, pullsAmid]
      congr 1
      funext _
      funext state
      obtain ⟨answer, next, next', after, trace, ho, ho', hnext⟩ := h cursor cursor' hR state
      rw [Action.bind_eq_after, Action.bind_eq_after, ho, ho']
      dsimp only
      rw [ih hnext]

/-- Sequences that are opened alike, with related cursors, are equivalent. -/
theorem Bisimulation.equivalent {source other : Source} {R : Cursor → Cursor → Prop}
    (h : source.Bisimulation other R) {base : Eval α} {f g : α → Cursor}
    (hstart : source.start = f <$> base) (hstart' : other.start = g <$> base)
    (hR : ∀ a, R (f a) (g a)) : source.Equivalent other := by
  intro actions
  rw [watched, watched, hstart, hstart', bind_map_left, bind_map_left]
  congr 1
  funext a
  rw [h.pullsAmid_eq actions (hR a)]

/-- A sequence cannot be told apart from itself. -/
theorem equivalent_of_eq {source other : Source} (h : source = other) :
    source.Equivalent other := by
  intro actions
  rw [h]

/-! ## Filters that look at each item on its own -/

/-- Tries a second filter where the first lets an item pass. -/
def andThen (first second : Item → Action (Option Item)) (item : Item) : Action (Option Item) := do
  match ← first item with
  | some item => second item
  | none => return none

section mapping

variable {first second : Item → Action (Option Item)} {item : Item} {state after after' : State}
  {trace trace' : Trace}

/-- What the first filter refuses, the second is not asked about. -/
theorem andThen_of_refused (h : first item state = ⟨none, after, trace⟩) :
    andThen first second item state = ⟨none, after, trace⟩ := by
  rw [andThen, Action.bind_eq_after, h]
  exact congrArg (Outcome.mk _ _) (List.append_nil trace)

/-- What the first filter accepts, the second decides about. -/
theorem andThen_of_accepted {passed : Item} {result : Option Item}
    (h : first item state = ⟨some passed, after, trace⟩)
    (h' : second passed after = ⟨result, after', trace'⟩) :
    andThen first second item state = ⟨result, after', trace ++ trace'⟩ := by
  rw [andThen, Action.bind_eq_after, h]
  dsimp only
  rw [h']
  rfl

/-- Two filters in a row lead to a later state, if each of them does. -/
theorem advances_andThen (hfirst : ∀ item, (first item).Advances)
    (hsecond : ∀ item, (second item).Advances) (item : Item) :
    (andThen first second item).Advances := by
  intro state
  have hle := hfirst item state
  rcases ho : first item state with ⟨passed | passed, after, trace⟩
  · rw [andThen_of_refused ho]
    rw [ho] at hle
    exact hle
  · rw [andThen_of_accepted ho rfl]
    rw [ho] at hle
    exact hle.trans (hsecond passed after)

variable {source : Source}

/-- **Looking for an item in a filtered sequence** is looking in its source for one that passes both
filters. By induction on the bound of what is left: on the left, items that the first filter refuses
are passed over in a loop of their own. -/
theorem Descends.seek_mapping (h : source.Descends) (hfirst : ∀ item, (first item).Advances)
    (hsecond : ∀ item, (second item).Advances) (cursor : Cursor) (state : State) :
    (source.mapping first).seek second (.derived cursor) state =
      (source.mapping (andThen first second)).advance (.derived cursor) state := by
  have hmapping := h.mapping hfirst
  have hboth := advances_andThen hfirst hsecond
  induction hn : cursor.bound state using Nat.strongRecOn generalizing cursor state with
  | ind n ih =>
      have hdescends := h cursor state
      rcases ho : source.advance cursor state with ⟨⟨answer, inner⟩, after, trace⟩
      rw [ho] at hdescends
      rcases answer with _ | item
      · have hpull := run_advance_mapping (h.run_seek_of_end hfirst ho)
        rw [hmapping.run_seek_of_end hsecond hpull,
          run_advance_mapping (h.run_seek_of_end hboth ho)]
      · have hlt : inner.bound after < n := hn ▸ hdescends item rfl
        have hle := inner.bound_le_of_later (hfirst item after)
        rcases hitem : first item after with ⟨_ | passed, after', trace'⟩
        · rw [hitem] at hle
          have hskip := h.run_seek_of_refused hfirst ho hitem
          have hskip' := h.run_seek_of_refused hboth ho (andThen_of_refused hitem)
          have hrest := ih _ (Nat.lt_of_le_of_lt hle hlt) inner after' rfl
          rw [hmapping.seek_of_after hsecond (advance_mapping_of_after hskip), hrest,
            advance_mapping_of_after hskip']
        · rw [hitem] at hle
          have hpull := run_advance_mapping (h.run_seek_of_accepted hfirst ho hitem)
          have hle' := inner.bound_le_of_later (hsecond passed after')
          rcases hpassed : second passed after' with ⟨_ | output, after'', trace''⟩
          · rw [hpassed] at hle'
            have hrest := ih _ (Nat.lt_of_le_of_lt (Nat.le_trans hle' hle) hlt) inner after'' rfl
            have hskip' := h.run_seek_of_refused hboth ho (andThen_of_accepted hitem hpassed)
            rw [hmapping.run_seek_of_refused hsecond hpull hpassed, hrest,
              advance_mapping_of_after hskip', List.append_assoc]
          · rw [hmapping.run_seek_of_accepted hsecond hpull hpassed,
              run_advance_mapping
                (h.run_seek_of_accepted hboth ho (andThen_of_accepted hitem hpassed)),
              List.append_assoc]

/-- **Two filters that look at each item on its own are one.** -/
theorem Descends.equivalent_mapping_mapping (h : source.Descends)
    (hfirst : ∀ item, (first item).Advances) (hsecond : ∀ item, (second item).Advances) :
    ((source.mapping first).mapping second).Equivalent (source.mapping (andThen first second)) := by
  have hbisimulation : ((source.mapping first).mapping second).Bisimulation
      (source.mapping (andThen first second))
      fun cursor cursor' => ∃ inner, cursor = .derived (.derived inner) ∧
        cursor' = .derived inner := by
    rintro _ _ ⟨cursor, rfl, rfl⟩ state
    have hseek := h.seek_mapping hfirst hsecond cursor state
    rcases ho : source.seek (andThen first second) cursor state with ⟨⟨answer, inner⟩, after, trace⟩
    rw [run_advance_mapping ho] at hseek
    exact ⟨answer, _, _, after, trace, run_advance_mapping hseek, run_advance_mapping ho,
      inner, rfl, rfl⟩
  have hstart : ((source.mapping first).mapping second).start =
      (fun cursor => .derived (.derived cursor)) <$> source.start :=
    (comp_map Cursor.derived Cursor.derived source.start).symm
  exact hbisimulation.equivalent hstart rfl fun cursor => ⟨cursor, rfl, rfl⟩

end mapping

/-- Two filters that look at values are one that looks at them. -/
theorem andThen_onValues (first second : Value → Eval (Option Value)) :
    andThen (onValues first) (onValues second) = onValues fun value => do
      match ← first value with
      | some value => second value
      | none => return none := by
  funext item state
  rcases item with e | value
  · rfl
  · have hfirst := onValues_ok first value state
    rcases ho : (first value).run state with ⟨result, after, trace⟩
    have hvalue : ((first value).run state).value = result := by rw [ho]
    rw [ho] at hfirst
    rw [onValues_ok]
    rcases result with e | _ | passed
    · rw [Eval.run_bind_error hvalue, ho]
      have hpass : onValues second (.error e) after = ⟨some (.error e), after, []⟩ := rfl
      rw [andThen_of_accepted hfirst hpass, List.append_nil]
    · rw [Eval.run_bind_ok hvalue, ho, andThen_of_refused hfirst]
      exact congrArg (Outcome.mk _ _) (List.append_nil trace).symm
    · rw [Eval.run_bind_ok hvalue, ho]
      exact andThen_of_accepted hfirst (onValues_ok second passed after)

/-! ## Limits -/

/-- **Of two limits the smaller counts.** -/
theorem equivalent_limited_limited (source : Source) (m n : Nat) :
    ((source.limited (pure m)).limited (pure n)).Equivalent (source.limited (pure (min m n))) := by
  have hbisimulation : ((source.limited (pure m)).limited (pure n)).Bisimulation
      (source.limited (pure (min m n)))
      fun cursor cursor' => ∃ m n inner, cursor = .atMost n (.atMost m inner) ∧
        cursor' = .atMost (min m n) inner := by
    rintro _ _ ⟨m, n, inner, rfl, rfl⟩ state
    rcases n with _ | n
    · rw [Nat.min_zero]
      exact ⟨none, _, _, state, [], rfl, rfl, m, 0, inner, rfl, by rw [Nat.min_zero]⟩
    · rcases m with _ | m
      · rw [Nat.zero_min]
        exact ⟨none, _, _, state, [], rfl, rfl, 0, n, inner, rfl, by rw [Nat.zero_min]⟩
      · rw [Nat.succ_min_succ]
        rcases ho : source.advance inner state with ⟨⟨answer, next⟩, after, trace⟩
        have hinner := run_advance_limited (pure m) m ho
        exact ⟨answer, _, _, after, trace, run_advance_limited (pure n) n hinner,
          run_advance_limited _ _ ho, m, n, next, rfl, rfl⟩
  have hstart : ((source.limited (pure m)).limited (pure n)).start =
      (fun cursor => .atMost n (.atMost m cursor)) <$> source.start := by
    rw [start_limited_pure, start_limited_pure, ← comp_map]
    rfl
  exact hbisimulation.equivalent hstart (source.start_limited_pure _) fun cursor =>
    ⟨m, n, cursor, rfl, rfl⟩

/-! ## First occurrences -/

section unique

variable {source : Source} (h : source.Descends)

include h

/-- What a pull on first occurrences brings: a value that was not seen before, and is from then on,
or no value, and then nothing new was seen. -/
theorem Descends.exists_advance_unique (seen : Value.Seen) (cursor : Cursor) (state : State) :
    ∃ (answer : Option Item) (inner : Cursor) (after : State) (trace : Trace),
      (∃ value, answer = some (.ok value) ∧ seen.contains value = false ∧
        source.unique.advance (.unseen seen cursor) state =
          ⟨(answer, .unseen (seen.insert value) inner), after, trace⟩) ∨
      ((∀ value, answer ≠ some (.ok value)) ∧
        source.unique.advance (.unseen seen cursor) state =
          ⟨(answer, .unseen seen inner), after, trace⟩) := by
  induction hn : cursor.bound state using Nat.strongRecOn generalizing cursor state with
  | ind n ih =>
      have hdescends := h cursor state
      rcases ho : source.advance cursor state with ⟨⟨answer, inner⟩, after, trace⟩
      rw [ho] at hdescends
      by_cases hvalue : ∃ value, answer = some (.ok value)
      · obtain ⟨value, rfl⟩ := hvalue
        rcases hcontains : seen.contains value with _ | _
        · exact ⟨_, inner, after, trace, .inl ⟨value, rfl, hcontains,
            h.advance_unique_of_new hcontains ho⟩⟩
        · have hskip := h.advance_unique_of_known hcontains ho
          obtain ⟨answer, inner', after', trace', hrest⟩ :=
            ih _ (hn ▸ hdescends _ rfl) inner after rfl
          refine ⟨answer, inner', after', trace ++ trace', ?_⟩
          rw [hskip]
          obtain ⟨value, hanswer, hnew, hrest⟩ | ⟨hanswer, hrest⟩ := hrest
          · rw [hrest]
            exact .inl ⟨value, hanswer, hnew, rfl⟩
          · rw [hrest]
            exact .inr ⟨hanswer, rfl⟩
      · have hanswer : ∀ value, answer ≠ some (.ok value) := fun value heq => hvalue ⟨value, heq⟩
        exact ⟨answer, inner, after, trace, .inr ⟨hanswer, h.advance_unique_of_not_ok hanswer ho⟩⟩

/-- **Nothing is left to drop among first occurrences.** Both filters have seen the same values. -/
theorem Descends.equivalent_unique_unique : source.unique.unique.Equivalent source.unique := by
  have hbisimulation : source.unique.unique.Bisimulation source.unique fun cursor cursor' =>
      ∃ seen inner, cursor = .unseen seen (.unseen seen inner) ∧ cursor' = .unseen seen inner := by
    rintro _ _ ⟨seen, cursor, rfl, rfl⟩ state
    obtain ⟨answer, inner, after, trace, hpull⟩ := h.exists_advance_unique seen cursor state
    obtain ⟨value, rfl, hnew, ho⟩ | ⟨hanswer, ho⟩ := hpull
    · exact ⟨_, _, _, after, trace, h.unique.advance_unique_of_new hnew ho, ho, _, inner, rfl, rfl⟩
    · exact ⟨answer, _, _, after, trace, h.unique.advance_unique_of_not_ok hanswer ho, ho, seen,
        inner, rfl, rfl⟩
  have hstart : source.unique.unique.start =
      (fun cursor => .unseen .empty (.unseen .empty cursor)) <$> source.start :=
    (comp_map (Cursor.unseen .empty) (Cursor.unseen .empty) source.start).symm
  exact hbisimulation.equivalent hstart rfl fun cursor => ⟨.empty, cursor, rfl, rfl⟩

end unique

/-! ## First occurrences of a limited sequence -/

/-- Calls on a limited sequence: as many of them as the limit admits are calls on its source. -/
theorem exists_pulls_limited (source : Source) (count : Eval Nat) (calls left : Nat)
    (cursor : Cursor) (state : State) :
    ∃ (answers : List (Option Item)) (cursor' : Cursor) (state' : State) (trace : Trace),
      answers.length = min calls left ∧
      source.pulls (min calls left) cursor state = ⟨(answers, cursor'), state', trace⟩ ∧
      (source.limited count).pulls calls (.atMost left cursor) state =
        ⟨(answers ++ List.replicate (calls - left) none, .atMost (left - calls) cursor'), state',
          trace⟩ := by
  induction calls generalizing left cursor state with
  | zero => exact ⟨[], cursor, state, [], by simp, by rw [Nat.zero_min]; rfl, by simp; rfl⟩
  | succ calls ih =>
      rcases left with _ | left
      · have hend : (source.limited count).advance (.atMost 0 cursor) state =
            ⟨(none, .atMost 0 cursor), state, []⟩ := rfl
        obtain ⟨answers, cursor', state', trace, hlength, hpulls, hlimited⟩ := ih 0 cursor state
        rw [Nat.min_zero] at hlength hpulls ⊢
        obtain rfl : answers = [] := List.length_eq_zero_iff.mp hlength
        rw [Nat.zero_sub] at hlimited ⊢
        exact ⟨[], cursor', state', trace, rfl, hpulls, pulls_cons hend hlimited⟩
      · rcases ho : source.advance cursor state with ⟨⟨answer, inner⟩, after, first⟩
        obtain ⟨answers, cursor', state', later, hlength, hpulls, hlimited⟩ := ih left inner after
        rw [Nat.succ_min_succ, Nat.add_sub_add_right, Nat.add_sub_add_right]
        exact ⟨answer :: answers, cursor', state', first ++ later, congrArg (· + 1) hlength,
          pulls_cons ho hpulls, pulls_cons (run_advance_limited count left ho) hlimited⟩

/-- **What `unique` makes of a limited sequence**: it pulls at most as many items as the limit
admits. -/
theorem Descends.exists_pulls_unique_limited {source : Source} (h : source.Descends)
    (count : Eval Nat) (left calls : Nat) (cursor : Cursor) (state : State) :
    ∃ (made : Nat) (answers : List (Option Item)) (cursor' : Cursor) (seen' : Value.Seen)
      (state' : State) (trace : Trace),
      source.pulls (min made left) cursor state = ⟨(answers, cursor'), state', trace⟩ ∧
      (source.limited count).pulls made (.atMost left cursor) state =
        ⟨(answers ++ List.replicate (made - left) none, .atMost (left - made) cursor'), state',
          trace⟩ ∧
      (source.limited count).unique.pulls calls (.unseen .empty (.atMost left cursor)) state =
        ⟨(Item.firstAnswers [] answers ++ List.replicate (made - left) none,
          .unseen seen' (.atMost (left - made) cursor')), state', trace⟩ := by
  have hlimited := h.limited count
  obtain ⟨all, cursor', state', trace, hall, hfewest⟩ :=
    hlimited.exists_fewest calls [] (.atMost left cursor) state
  obtain ⟨seen', hunique⟩ := hlimited.pulls_unique hall Value.Seen.holds_empty hfewest
  obtain ⟨answers, inner, after, events, -, hpulls, hmade⟩ :=
    source.exists_pulls_limited count all.length left cursor state
  obtain ⟨⟨hanswers, rfl⟩, rfl, rfl⟩ : (all = answers ++ List.replicate (all.length - left) none ∧
      cursor' = .atMost (left - all.length) inner) ∧ state' = after ∧ trace = events := by
    simpa using hall.symm.trans hmade
  have hkept := Item.firstAnswers_append_ends [] answers (all.length - left)
  rw [← hanswers] at hkept
  rw [hkept] at hunique
  exact ⟨all.length, answers, inner, seen', state', trace, hpulls, hmade, hunique⟩

end Source

/-! ## Lambdas -/

namespace Source

/-- **To reject is to select by the negation.** -/
theorem sifted_negated (keep : Bool) (binder : Binder) (source : Source) :
    source.sifted keep binder.negated = source.sifted (!keep) binder := by
  unfold sifted
  congr 2
  funext value
  rw [Binder.test_negated, bind_map_left]
  congr 1
  funext passes
  cases passes <;> cases keep <;> rfl

/-- **Two selections are one**, by a lambda that tries the second where the first passes. -/
theorem Descends.equivalent_sifted_sifted {source : Source} (h : source.Descends)
    {first second both : Binder} (hfirst : Binder.Obeys (State.later queries) first)
    (hsecond : Binder.Obeys (State.later queries) second)
    (hboth : ∀ value, both.test value = (do
      if ← first.test value then second.test value else return false)) :
    ((source.sifted true first).sifted true second).Equivalent (source.sifted true both) := by
  have hequivalent := h.equivalent_mapping_mapping (advances_sift hfirst true)
    (advances_sift hsecond true)
  let accept (binder : Binder) : Item → Action (Option Item) := onValues fun value => do
    return if (← binder.test value) == true then some value else none
  have hmapping : source.sifted true both =
      source.mapping (andThen (accept first) (accept second)) := by
    rw [andThen_onValues, Source.sifted]
    congr 2
    funext value
    rw [hboth, bind_assoc, bind_assoc]
    congr 1
    funext passes
    cases passes with
    | false => rfl
    | true => rfl
  rw [hmapping]
  exact hequivalent

end Source

/-- To run two evaluations under a binding is to run each under it, if the first leaves the bindings
as they are. -/
theorem Eval.withBinding_bind {x : Eval α} (hx : x.Advances) (f : α → Eval β) (name : String)
    (value : Value) :
    withBinding name value (x >>= f) =
      (withBinding name value x >>= fun a => withBinding name value (f a)) := by
  apply ext_run
  intro state
  have hbindings := (hx ⟨(name, value) :: state.bindings, state.workingSet⟩).bindings
  rcases ho : x.run ⟨(name, value) :: state.bindings, state.workingSet⟩ with
    ⟨result, ⟨bindings, workingSet⟩, trace⟩
  rw [ho] at hbindings
  obtain rfl : bindings = (name, value) :: state.bindings := hbindings
  have hrun : (withBinding name value x).run state =
      ⟨result, ⟨state.bindings, workingSet⟩, trace⟩ := by
    rw [run_withBinding, ho]
    rfl
  have hresult : ((withBinding name value x).run state).value = result := by rw [hrun]
  have hresult' : (x.run ⟨(name, value) :: state.bindings, state.workingSet⟩).value = result := by
    rw [ho]
  rw [run_withBinding]
  rcases result with e | a
  · rw [run_bind_error hresult', run_bind_error hresult, hrun, ho]
    rfl
  · rw [run_bind_ok hresult', run_bind_ok hresult, hrun, ho]
    rfl

/-- The value of a conjunction of two. -/
theorem Expr.value_and (ctx : Context) (left right : Expr) :
    (left.and right).value ctx =
      .boolean <$> Operator.conjunction [left.meaning ctx, right.meaning ctx] := by
  rw [Expr.value, Expr.and, meaning, meanings, meanings, meanings]
  rfl

/-- **The conjunction of two lambdas tries the second where the first passes.** -/
theorem Lambda.test_and (ctx : Context) (name : String) (left right : Expr) (value : Value) :
    (Lambda.meaning ctx ⟨name, left.and right⟩).test value = (do
      if ← (Lambda.meaning ctx ⟨name, left⟩).test value then
        (Lambda.meaning ctx ⟨name, right⟩).test value
      else return false) := by
  have hleft : (left.value ctx).Advances := (left.value_obeys (State.later ctx.queries)).advances
  have hright : (do if (← right.value ctx).isTrue then return true else return false) =
      Value.isTrue <$> right.value ctx := by
    rw [map_eq_pure_bind]
    congr 1
    funext value
    cases value.isTrue <;> rfl
  have hboth : Operator.conjunction [left.meaning ctx, right.meaning ctx] = (do
      if (← left.value ctx).isTrue then Value.isTrue <$> right.value ctx else return false) := by
    rw [← hright]
    rfl
  have htrue : (fun answer => Value.isTrue (.boolean answer)) = id := funext Value.isTrue_boolean
  unfold Binder.test Binder.apply meaning
  dsimp only
  rw [Expr.value_and, hboth, Eval.withBinding_map, ← comp_map]
  show (fun answer => Value.isTrue (.boolean answer)) <$> _ = _
  rw [htrue, id_map, Eval.withBinding_bind hleft, bind_map_left]
  congr 1
  funext answer
  cases answer.isTrue with
  | false => rfl
  | true => exact Eval.withBinding_map _ _ _ _

/-! ## Expressions -/

namespace Expr

/-- The items that do not pass a lambda. -/
def reject (source : Expr) (condition : Lambda) : Expr :=
  source.filtered .reject (some condition)

/-- The first of any equal items. -/
def unique (source : Expr) : Expr :=
  source.filtered .unique none

variable (ctx : Context) (source : Expr)

/-- A rejection as a sequence. -/
theorem source_reject (condition : Lambda) :
    (source.reject condition).source ctx =
      (source.source ctx).sifted false (condition.meaning ctx) :=
  Stage.source_expr ctx source (.reject condition)

/-- A limit by a number that is not negative, as a sequence. -/
theorem source_limited {count : Int64} (h : 0 ≤ count.toInt) :
    (source.limited count).source ctx = (source.source ctx).limited (pure count.toInt.toNat) :=
  congrArg Meaning.source (meaning_limited ctx source h)

/-- Rejecting is selecting by the negation. -/
theorem source_reject_eq_select (condition : Lambda) :
    (source.reject condition).source ctx = (source.select condition.negated).source ctx := by
  rw [source_reject, source_select, meaning_lambda_negated, Source.sifted_negated]
  rfl

/-- Selecting twice is selecting by the conjunction. -/
theorem equivalent_select_select (name : String) (left right : Expr) :
    (((source.select ⟨name, left⟩).select ⟨name, right⟩).source ctx).Equivalent
      ((source.select ⟨name, left.and right⟩).source ctx) := by
  have hleft := Lambda.meaning_obeys (State.later ctx.queries) ⟨name, left⟩
  have hright := Lambda.meaning_obeys (State.later ctx.queries) ⟨name, right⟩
  rw [source_select, source_select, source_select]
  exact (source.source_descends ctx).equivalent_sifted_sifted hleft hright
    (Lambda.test_and ctx name left right)

/-- Limiting twice is limiting by the smaller number. -/
theorem equivalent_limited_limited {m n : Int64} (hm : 0 ≤ m.toInt) (hn : 0 ≤ n.toInt) :
    (((source.limited m).limited n).source ctx).Equivalent
      ((source.limited (min m n)).source ctx) := by
  have hmin : (min m n).toInt = min m.toInt n.toInt := by
    show (if m ≤ n then m else n).toInt = _
    split
    · rename_i hle
      rw [Int64.le_iff_toInt_le] at hle
      omega
    · rename_i hle
      rw [Int64.le_iff_toInt_le] at hle
      omega
  have hcount : (min m n).toInt.toNat = min m.toInt.toNat n.toInt.toNat := by
    omega
  rw [source_limited ctx _ hn, source_limited ctx _ hm, source_limited ctx _ (by omega), hcount]
  exact Source.equivalent_limited_limited _ _ _

/-- **The algebra of filters.** In every context, and for every source:

* rejecting by a lambda is selecting by its negation;
* selecting by one lambda and then by another over the same variable is selecting by their
  conjunction;
* limiting to `m` and then to `n` items is limiting to the smaller number;
* `unique` over `unique` is `unique`;
* `unique` over the first `n` items opens what these open. For any number of calls of `next` on it
  there are so many calls on the limited sequence, of whose answers it gives the first occurrences,
  failures and ends; these make at most `n` pulls on the source, and no other step.

Sequences that are said to be the same are equivalent: whoever opens them and pulls on them, any
number of times and whatever is done between two pulls, sees the same answers, failures included,
or the same failure to open, the same events and the same state. -/
theorem filter_laws :
    (∀ condition : Lambda, ((source.reject condition).source ctx).Equivalent
      ((source.select condition.negated).source ctx)) ∧
    (∀ (name : String) (left right : Expr),
      (((source.select ⟨name, left⟩).select ⟨name, right⟩).source ctx).Equivalent
        ((source.select ⟨name, left.and right⟩).source ctx)) ∧
    (∀ m n : Int64, 0 ≤ m.toInt → 0 ≤ n.toInt →
      (((source.limited m).limited n).source ctx).Equivalent
        ((source.limited (min m n)).source ctx)) ∧
    (source.unique.unique.source ctx).Equivalent (source.unique.source ctx) ∧
    ∀ n : Int64, 0 ≤ n.toInt →
      let bound := n.toInt.toNat
      let inner := source.source ctx
      let limited := (source.limited n).source ctx
      let unique := (source.limited n).unique.source ctx
      limited.start = .atMost bound <$> inner.start ∧
      unique.start = .unseen .empty <$> limited.start ∧
      ∀ (calls : Nat) (cursor : Cursor) (state : State),
        ∃ (made : Nat) (answers : List (Option Item)) (cursor' : Cursor) (seen' : Value.Seen)
          (state' : State) (trace : Trace),
          inner.pulls (min made bound) cursor state = ⟨(answers, cursor'), state', trace⟩ ∧
          limited.pulls made (.atMost bound cursor) state =
            ⟨(answers ++ List.replicate (made - bound) none, .atMost (bound - made) cursor'),
              state', trace⟩ ∧
          unique.pulls calls (.unseen .empty (.atMost bound cursor)) state =
            ⟨(Item.firstAnswers [] answers ++ List.replicate (made - bound) none,
              .unseen seen' (.atMost (bound - made) cursor')), state', trace⟩ := by
  refine ⟨fun condition => Source.equivalent_of_eq (source_reject_eq_select ctx source condition),
    equivalent_select_select ctx source, fun m n => equivalent_limited_limited ctx source, ?_, ?_⟩
  · have hinner : source.unique.source ctx = (source.source ctx).unique :=
      source_unique ctx source none
    have houter : source.unique.unique.source ctx = (source.unique.source ctx).unique :=
      source_unique ctx source.unique none
    rw [houter, hinner]
    exact (source.source_descends ctx).equivalent_unique_unique
  · intro n hn bound inner limited unique
    have hlimited : limited = inner.limited (pure bound) := source_limited ctx source hn
    have hunique : unique = (inner.limited (pure bound)).unique := by
      rw [← hlimited]
      exact source_unique ctx (source.limited n) none
    rw [hunique, hlimited]
    have hdescends := source.source_descends ctx
    exact ⟨inner.start_limited_pure bound, rfl, fun calls cursor state =>
      hdescends.exists_pulls_unique_limited (pure bound) bound calls cursor state⟩

/-- The laws over a working set of four items, of which the third is a failure. What is shown of the
left side of each law is computed on its right side. The last law says that no more than two items
are pulled on the way to the first two occurrences. -/
theorem filter_laws_four_items :
    let ctx : Context := ⟨.none, none, Catalog.queries []⟩
    let lost : QueryError := .evaluation "source" 0 (.reported "lost")
    let items : List Item := [.ok (.integer 1), .ok (.integer 1), .error lost, .ok (.integer 2)]
    let state : State := ⟨[], .available (.ofItems items)⟩
    let taken : State := ⟨[], .taken (.ofItems items)⟩
    let isOne : Expr := .call .equals [.var "x", .literal (.integer 1)]
    let isPositive : Expr := .call .greater [.var "x", .literal (.integer 0)]
    let three : List (Action Unit) := List.replicate 3 (pure ())
    let unique := (everything.limited 2).unique.source ctx
    0 ≤ (3 : Int64).toInt ∧ 0 ≤ (2 : Int64).toInt ∧
      (((everything.reject ⟨"x", isOne⟩).source ctx).watched three).run state =
        ⟨.ok [some (.error lost), some (.ok (.integer 2)), none], ⟨[], .taken .spent⟩,
          [.pulled, .pulled, .pulled, .pulled]⟩ ∧
      ((((everything.select ⟨"x", isPositive⟩).select ⟨"x", isOne⟩).source ctx).watched three).run
          state =
        ⟨.ok [some (.ok (.integer 1)), some (.ok (.integer 1)), some (.error lost)],
          ⟨[], .taken (.ofItems [.ok (.integer 2)])⟩, [.pulled, .pulled, .pulled]⟩ ∧
      ((((everything.limited 3).limited 2).source ctx).watched three).run state =
        ⟨.ok [some (.ok (.integer 1)), some (.ok (.integer 1)), none],
          ⟨[], .taken (.ofItems [.error lost, .ok (.integer 2)])⟩, [.pulled, .pulled]⟩ ∧
      ((everything.unique.unique.source ctx).watched three).run state =
        ⟨.ok [some (.ok (.integer 1)), some (.error lost), some (.ok (.integer 2))],
          ⟨[], .taken .spent⟩, [.pulled, .pulled, .pulled, .pulled]⟩ ∧
      ∃ pulls ≤ 2, (unique.pulls 3 (.unseen .empty (.atMost 2 .workingSet)) taken).trace =
        ((everything.source ctx).pulls pulls .workingSet taken).trace := by
  intro ctx lost items state taken isOne isPositive three unique
  obtain ⟨hreject, hselect, hlimited, hunique, hbounded⟩ := filter_laws ctx everything
  refine ⟨by decide, by decide, ?_, ?_, ?_, ?_, ?_⟩
  · rw [hreject ⟨"x", isOne⟩ three]
    subst three isOne state items lost ctx
    exact rfl
  · rw [hselect "x" isPositive isOne three]
    subst three isPositive isOne state items lost ctx
    exact rfl
  · rw [hlimited 3 2 (by decide) (by decide) three]
    subst three state items lost ctx
    exact rfl
  · rw [hunique three]
    subst three state items lost ctx
    exact rfl
  · obtain ⟨-, -, hpulls⟩ := hbounded 2 (by decide)
    obtain ⟨made, answers, cursor, seen, after, trace, hinner, -, houter⟩ :=
      hpulls 3 .workingSet taken
    exact ⟨min made 2, Nat.min_le_right made 2,
      (congrArg Outcome.trace houter).trans (congrArg Outcome.trace hinner).symm⟩

end Expr

end RecordQuery
