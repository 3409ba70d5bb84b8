import RecordQuery.Proofs.Eval.Streaming
import RecordQuery.Proofs.Value.Equality

/-!
# Repetitions

`unique` remembers the values that it passed on, and drops those that equal one of them. Since
equality is an equivalence, that is to drop a value exactly if it equals any value before it, passed
on or not (`Item.firsts_nil_eq_distinct`).

What the answers of a source become is told for any source (`Item.firstAnswers`), also for one that
goes on behind its end. `Source.Descends.pulls_unique` compares pulls: as soon as the answers of the
source hold enough that are no repetitions, and not before, `unique` has its answers.

**Main statement** (`Expr.unique_drops_repetitions`): equality of values is an equivalence, which
fingerprints respect, and `unique` passes on all failures and the first of any equal values.
-/

namespace RecordQuery

/-! ## Items -/

namespace Item

/-- The value of an item, unless it is a failure. -/
def value? : Item → Option Value
  | .ok value => some value
  | .error _ => none

/-- Whether an item is a value that equals one of several items. -/
def repeats (earlier : List Item) : Item → Bool
  | .ok value => (earlier.filterMap value?).any (· == value)
  | .error _ => false

/-- One value more among the items is one more among the values. -/
theorem filterMap_value?_concat_ok (items : List Item) (value : Value) :
    (items ++ [(.ok value : Item)]).filterMap value? = items.filterMap value? ++ [value] := by
  simp [value?]

/-- One failure more among the items is none more among the values. -/
theorem filterMap_value?_concat_error (items : List Item) (e : QueryError) :
    (items ++ [(.error e : Item)]).filterMap value? = items.filterMap value? := by
  simp [value?]

/-- Some values that stand for others: a value equals one of the former if it equals one of the
latter. -/
def StandFor (seen values : List Value) : Prop :=
  ∀ value, seen.any (· == value) = values.any (· == value)

/-- A value that equals one of several need not be added to them. -/
theorem StandFor.concat_of_any {seen values : List Value} (h : StandFor seen values) {value : Value}
    (hany : seen.any (· == value) = true) : StandFor seen (values ++ [value]) := by
  intro other
  rw [h other, List.any_append, List.any_cons, List.any_nil, Bool.or_false]
  rcases heq : value == other with _ | _
  · rw [Bool.or_false]
  · rw [Bool.or_true]
    rw [h value, List.any_eq_true] at hany
    obtain ⟨known, hmem, hknown⟩ := hany
    exact List.any_eq_true.mpr ⟨known, hmem, BEq.trans hknown heq⟩

/-- A value that is added on both sides stands for itself. -/
theorem StandFor.cons {seen values : List Value} (h : StandFor seen values) (value : Value) :
    StandFor (value :: seen) (values ++ [value]) := by
  intro other
  rw [List.any_cons, h other, List.any_append, List.any_cons, List.any_nil, Bool.or_false,
    Bool.or_comm]

/-- Whether a value repeats earlier items is told from what stands for them. -/
theorem repeats_of_standFor {seen : List Value} {earlier : List Item}
    (h : StandFor seen (earlier.filterMap value?)) (value : Value) :
    repeats earlier (.ok value) = seen.any (· == value) :=
  (h value).symm

/-- First occurrences behind some items that were met before. -/
theorem firsts_eq_filter_from {seen : List Value} {earlier : List Item}
    (h : StandFor seen (earlier.filterMap value?)) (items : List Item) :
    firsts seen items = ((items.zipIdx earlier.length).filter fun entry =>
      !repeats ((earlier ++ items).take entry.2) entry.1).map Prod.fst := by
  induction items generalizing seen earlier with
  | nil => rfl
  | cons item rest ih =>
      have happend : earlier ++ item :: rest = (earlier ++ [item]) ++ rest := by simp
      have htake : ((earlier ++ [item]) ++ rest).take earlier.length = earlier := by simp
      have hlength : earlier.length + 1 = (earlier ++ [item]).length := by simp
      simp only [List.zipIdx_cons, List.filter_cons, happend, htake, hlength]
      rcases item with e | value
      · have hrest : StandFor seen ((earlier ++ [(.error e : Item)]).filterMap value?) := by
          rw [filterMap_value?_concat_error]
          exact h
        rw [firsts, ih hrest]
        rfl
      · rw [firsts, repeats_of_standFor h]
        rcases hany : seen.any (· == value) with _ | _
        · have hrest : StandFor (value :: seen)
              ((earlier ++ [(.ok value : Item)]).filterMap value?) := by
            rw [filterMap_value?_concat_ok]
            exact h.cons value
          rw [ih hrest]
          rfl
        · have hrest : StandFor seen ((earlier ++ [(.ok value : Item)]).filterMap value?) := by
            rw [filterMap_value?_concat_ok]
            exact h.concat_of_any hany
          rw [ih hrest]
          rfl

/-- The items that repeat none before them: failures, and values that equal no value before. -/
def distinct (items : List Item) : List Item :=
  (items.zipIdx.filter fun entry => !repeats (items.take entry.2) entry.1).map Prod.fst

/-- **First occurrences are the items that repeat none before them.** -/
theorem firsts_nil_eq_distinct (items : List Item) : firsts [] items = distinct items := by
  have hnone : StandFor [] (([] : List Item).filterMap value?) := fun _ => rfl
  exact firsts_eq_filter_from hnone items

/-- No value that is kept equals one that was seen. -/
theorem ne_of_mem_firsts {seen : List Value} {items : List Item} {value known : Value}
    (hmem : .ok value ∈ firsts seen items) (hknown : known ∈ seen) : (known == value) = false := by
  induction items generalizing seen with
  | nil => cases hmem
  | cons item rest ih =>
      rcases item with e | first
      · rw [firsts, List.mem_cons] at hmem
        rcases hmem with heq | hmem
        · cases heq
        · exact ih hmem hknown
      · rw [firsts] at hmem
        split at hmem
        · exact ih hmem hknown
        · rename_i hnew
          rcases List.mem_cons.mp hmem with heq | hmem
          · cases heq
            rw [Bool.not_eq_true, List.any_eq_false] at hnew
            exact Bool.eq_false_iff.mpr (hnew known hknown)
          · exact ih hmem (List.mem_cons_of_mem _ hknown)

/-- **No two values that are kept are equal.** -/
theorem pairwise_firsts (seen : List Value) (items : List Item) :
    ((firsts seen items).filterMap value?).Pairwise fun a b => (a == b) = false := by
  induction items generalizing seen with
  | nil => exact .nil
  | cons item rest ih =>
      rcases item with e | value
      · exact ih seen
      · rw [firsts]
        split
        · exact ih seen
        · refine List.pairwise_cons.mpr ⟨fun other hother => ?_, ih (value :: seen)⟩
          obtain ⟨item, hitem, hvalue⟩ := List.mem_filterMap.mp hother
          rcases item with e | found
          · cases hvalue
          · cases hvalue
            exact ne_of_mem_firsts hitem List.mem_cons_self

/-- **Every value equals one that is kept**, or was seen before. -/
theorem exists_mem_firsts {items : List Item} {value : Value} (h : .ok value ∈ items)
    (seen : List Value) :
    (∃ known ∈ seen, known == value) ∨ ∃ kept, .ok kept ∈ firsts seen items ∧ kept == value := by
  induction items generalizing seen with
  | nil => cases h
  | cons item rest ih =>
      rcases item with e | first
      · have hmem : .ok value ∈ rest := by simpa using h
        obtain hknown | ⟨kept, hkept, heq⟩ := ih hmem seen
        · exact .inl hknown
        · exact .inr ⟨kept, List.mem_cons_of_mem _ hkept, heq⟩
      · rw [firsts]
        rcases hany : seen.any (· == first) with _ | _
        · simp only [Bool.false_eq_true, if_false]
          rcases List.mem_cons.mp h with heq | hmem
          · cases heq
            exact .inr ⟨value, List.mem_cons_self, BEq.rfl⟩
          · obtain ⟨known, hknown, heq⟩ | ⟨kept, hkept, heq⟩ := ih hmem (first :: seen)
            · rcases List.mem_cons.mp hknown with rfl | hknown
              · exact .inr ⟨known, List.mem_cons_self, heq⟩
              · exact .inl ⟨known, hknown, heq⟩
            · exact .inr ⟨kept, List.mem_cons_of_mem _ hkept, heq⟩
        · simp only [if_true]
          rcases List.mem_cons.mp h with heq | hmem
          · cases heq
            exact .inl (List.any_eq_true.mp hany)
          · exact ih hmem seen

/-! ## Answers -/

/-- The answers to calls of `next` without the values that equal one seen or met before. Failures
stay, and so does the end, each time it is found. -/
def firstAnswers (seen : List Value) : List (Option Item) → List (Option Item)
  | [] => []
  | some (.ok value) :: rest =>
    if seen.any (· == value) then firstAnswers seen rest
    else some (.ok value) :: firstAnswers (value :: seen) rest
  | answer :: rest => answer :: firstAnswers seen rest

/-- Of answers that are all items, the first ones are the first occurrences among these. -/
theorem firstAnswers_map_some (seen : List Value) (items : List Item) :
    firstAnswers seen (items.map some) = (firsts seen items).map some := by
  induction items generalizing seen with
  | nil => rfl
  | cons item rest ih =>
      rcases item with e | value
      · rw [List.map_cons, firstAnswers, ih, firsts, List.map_cons]
        simp
      · rw [List.map_cons, firstAnswers, firsts, ih, ih]
        split <;> rfl

/-- Answers that come later have no part in those that stay before them. -/
theorem exists_firstAnswers_append (seen : List Value) (answers later : List (Option Item)) :
    ∃ rest, firstAnswers seen (answers ++ later) = firstAnswers seen answers ++ rest := by
  induction answers generalizing seen with
  | nil => exact ⟨_, rfl⟩
  | cons answer answers ih =>
      rcases answer with _ | e | value
      · obtain ⟨rest, hrest⟩ := ih seen
        exact ⟨rest, congrArg (none :: ·) hrest⟩
      · obtain ⟨rest, hrest⟩ := ih seen
        exact ⟨rest, congrArg (some (Except.error e) :: ·) hrest⟩
      · rw [List.cons_append, firstAnswers, firstAnswers]
        split
        · exact ih seen
        · obtain ⟨rest, hrest⟩ := ih (value :: seen)
          exact ⟨rest, congrArg (some (Except.ok value) :: ·) hrest⟩

/-- Fewer answers have no more first ones. -/
theorem length_firstAnswers_take_le (seen : List Value) (answers : List (Option Item)) (j : Nat) :
    (firstAnswers seen (answers.take j)).length ≤ (firstAnswers seen answers).length := by
  obtain ⟨rest, hrest⟩ := exists_firstAnswers_append seen (answers.take j) (answers.drop j)
  rw [List.take_append_drop] at hrest
  simp [hrest]

/-- The end is no repetition. -/
theorem firstAnswers_append_ends (seen : List Value) (answers : List (Option Item)) (n : Nat) :
    firstAnswers seen (answers ++ List.replicate n none) =
      firstAnswers seen answers ++ List.replicate n none := by
  induction answers generalizing seen with
  | nil =>
      induction n with
      | zero => rfl
      | succ n ih => exact congrArg (none :: ·) ih
  | cons answer answers ih =>
      rcases answer with _ | e | value
      · exact congrArg (none :: ·) (ih seen)
      · exact congrArg (some (Except.error e) :: ·) (ih seen)
      · rw [List.cons_append, firstAnswers, firstAnswers]
        split
        · exact ih seen
        · exact congrArg (some (Except.ok value) :: ·) (ih (value :: seen))

/-- The answers are the fewest of a sequence among which so many are no repetitions. -/
def Fewest (seen : List Value) (answers : List (Option Item)) (calls : Nat) : Prop :=
  (firstAnswers seen answers).length = calls ∧
    ∀ j < answers.length, (firstAnswers seen (answers.take j)).length < calls

/-- No answers are the fewest with no first one. -/
theorem fewest_nil (seen : List Value) : Fewest seen [] 0 :=
  ⟨rfl, fun j hj => absurd hj (Nat.not_lt_zero j)⟩

/-- A repetition is one more answer, and none that stays. -/
theorem fewest_cons_of_any {seen : List Value} {value : Value}
    (h : seen.any (· == value) = true) (answers : List (Option Item)) (calls : Nat) :
    Fewest seen (some (.ok value) :: answers) (calls + 1) ↔ Fewest seen answers (calls + 1) := by
  have hskip : ∀ rest, firstAnswers seen (some (.ok value) :: rest) = firstAnswers seen rest := by
    intro rest
    rw [firstAnswers, if_pos h]
  unfold Fewest
  rw [hskip]
  refine and_congr_right fun _ => ⟨fun hfew j hj => ?_, fun hfew j hj => ?_⟩
  · have hlt := hfew (j + 1) (by simpa using hj)
    rwa [List.take_succ_cons, hskip] at hlt
  · rcases j with _ | j
    · exact Nat.succ_pos calls
    · rw [List.take_succ_cons, hskip]
      exact hfew j (by simpa using hj)

/-- An answer that is no repetition is one more that stays. -/
theorem fewest_cons_of_first {seen seen' : List Value} {answer : Option Item}
    (h : ∀ rest, firstAnswers seen (answer :: rest) = answer :: firstAnswers seen' rest)
    (answers : List (Option Item)) (calls : Nat) :
    Fewest seen (answer :: answers) (calls + 1) ↔ Fewest seen' answers calls := by
  unfold Fewest
  rw [h, List.length_cons, Nat.add_right_cancel_iff]
  refine and_congr_right fun _ => ⟨fun hfew j hj => ?_, fun hfew j hj => ?_⟩
  · have hlt := hfew (j + 1) (by simpa using hj)
    rw [List.take_succ_cons, h, List.length_cons] at hlt
    omega
  · rcases j with _ | j
    · exact Nat.succ_pos calls
    · rw [List.take_succ_cons, h, List.length_cons]
      have hlt := hfew j (by simpa using hj)
      omega

end Item

/-! ## Calls of `next` -/

namespace Source

open Item

variable {source : Source} {cursor cursor' : Cursor} {state state' : State} {trace : Trace}

/-- One call and then others. -/
theorem pulls_succ (source : Source) (calls : Nat) (cursor : Cursor) (state : State) :
    source.pulls (calls + 1) cursor state =
      let o := source.advance cursor state
      let o' := source.pulls calls o.value.2 o.state
      ⟨(o.value.1 :: o'.value.1, o'.value.2), o'.state, o.trace ++ o'.trace⟩ := by
  rw [pulls, Action.bind_eq_after]
  dsimp only
  rw [Action.bind_eq_after]
  show Outcome.mk _ _ (_ ++ (_ ++ [])) = _
  rw [List.append_nil]
  rfl

/-- The first of several calls, and the others. -/
theorem exists_of_pulls_succ {calls : Nat} {answers : List (Option Item)}
    (h : source.pulls (calls + 1) cursor state = ⟨(answers, cursor'), state', trace⟩) :
    ∃ answer rest inner after first later, answers = answer :: rest ∧
      source.advance cursor state = ⟨(answer, inner), after, first⟩ ∧
      source.pulls calls inner after = ⟨(rest, cursor'), state', later⟩ ∧
      trace = first ++ later := by
  rw [pulls_succ] at h
  generalize source.advance cursor state = o at h ⊢
  obtain ⟨⟨answer, inner⟩, after, first⟩ := o
  rcases hlater : source.pulls calls inner after with ⟨⟨rest, last⟩, final, later⟩
  dsimp only at h
  rw [hlater] at h
  cases h
  exact ⟨answer, rest, inner, after, first, later, rfl, rfl, hlater, rfl⟩

/-- A call of `next`, and the calls that follow it. -/
theorem pulls_cons {answer : Option Item} {answers : List (Option Item)} {inner : Cursor}
    {after : State} {first later : Trace} {calls : Nat}
    (h : source.advance cursor state = ⟨(answer, inner), after, first⟩)
    (h' : source.pulls calls inner after = ⟨(answers, cursor'), state', later⟩) :
    source.pulls (calls + 1) cursor state =
      ⟨(answer :: answers, cursor'), state', first ++ later⟩ := by
  rw [pulls_succ, h]
  dsimp only
  rw [h']

/-- A call comes to what another comes to from elsewhere, and then so do several. -/
theorem pulls_succ_of_after {inner : Cursor} {after : State}
    (h : source.advance cursor state = (source.advance inner after).after trace) (calls : Nat) :
    source.pulls (calls + 1) cursor state = (source.pulls (calls + 1) inner after).after trace := by
  rw [pulls_succ, pulls_succ, h]
  simp [Outcome.after]

/-- **Every sequence comes to its end**: calls bring items, and then find it. -/
theorem Descends.exists_pulls_to_end (h : source.Descends) (cursor : Cursor) (state : State) :
    ∃ (items : List Item) (cursor' : Cursor) (state' : State) (trace : Trace),
      source.pulls (items.length + 1) cursor state =
      ⟨(items.map some ++ [none], cursor'), state', trace⟩ := by
  induction hn : cursor.bound state using Nat.strongRecOn generalizing cursor state with
  | ind n ih =>
      have hdescends := h cursor state
      rcases ho : source.advance cursor state with ⟨⟨answer, inner⟩, after, first⟩
      rw [ho] at hdescends
      rcases answer with _ | item
      · exact ⟨[], inner, after, first ++ [], pulls_cons ho rfl⟩
      · obtain ⟨items, cursor', state', later, hlater⟩ :=
          ih _ (hn ▸ hdescends item rfl) inner after rfl
        exact ⟨item :: items, cursor', state', first ++ later, pulls_cons ho hlater⟩

/-- Calls bring as many answers as are wanted that are no repetitions. -/
theorem Descends.exists_fewest (h : source.Descends) (calls : Nat) (seen : List Value)
    (cursor : Cursor) (state : State) :
    ∃ (answers : List (Option Item)) (cursor' : Cursor) (state' : State) (trace : Trace),
      source.pulls answers.length cursor state = ⟨(answers, cursor'), state', trace⟩ ∧
        Fewest seen answers calls := by
  induction calls generalizing seen cursor state with
  | zero => exact ⟨[], cursor, state, [], rfl, fewest_nil seen⟩
  | succ calls ih =>
      induction hn : cursor.bound state using Nat.strongRecOn generalizing cursor state with
      | ind n ihn =>
          have hdescends := h cursor state
          rcases ho : source.advance cursor state with ⟨⟨answer, inner⟩, after, first⟩
          rw [ho] at hdescends
          by_cases hknown : ∃ value, answer = some (.ok value) ∧ seen.any (· == value) = true
          · obtain ⟨value, rfl, hany⟩ := hknown
            obtain ⟨answers, cursor', state', later, hlater, hfewest⟩ :=
              ihn _ (hn ▸ hdescends _ rfl) inner after rfl
            exact ⟨some (.ok value) :: answers, cursor', state', first ++ later,
              pulls_cons ho hlater, (fewest_cons_of_any hany answers calls).mpr hfewest⟩
          · obtain ⟨seen', hfirst⟩ : ∃ seen', ∀ rest,
                firstAnswers seen (answer :: rest) = answer :: firstAnswers seen' rest := by
              rcases answer with _ | e | value
              · exact ⟨seen, fun _ => rfl⟩
              · exact ⟨seen, fun _ => rfl⟩
              · refine ⟨value :: seen, fun rest => ?_⟩
                rw [firstAnswers, if_neg fun hany => hknown ⟨value, rfl, hany⟩]
            obtain ⟨answers, cursor', state', later, hlater, hfewest⟩ := ih seen' inner after
            exact ⟨answer :: answers, cursor', state', first ++ later, pulls_cons ho hlater,
              (fewest_cons_of_first hfirst answers calls).mpr hfewest⟩

/-! ## `unique` -/

/-- **What becomes of the answers of a source**: by the fewest of them among which so many are no
repetitions, first occurrences are answered so many times. -/
theorem Descends.pulls_unique (h : source.Descends) {seen : Value.Seen}
    {answers : List (Option Item)} {values : List Value} {calls : Nat}
    (hpulls : source.pulls answers.length cursor state = ⟨(answers, cursor'), state', trace⟩)
    (hseen : seen.Holds values) (hfewest : Fewest values answers calls) :
    ∃ seen', source.unique.pulls calls (.unseen seen cursor) state =
      ⟨(firstAnswers values answers, .unseen seen' cursor'), state', trace⟩ := by
  induction answers generalizing calls cursor state trace seen values with
  | nil =>
      obtain rfl : calls = 0 := hfewest.1.symm
      cases hpulls
      exact ⟨seen, rfl⟩
  | cons answer answers ih =>
      obtain ⟨_, _, inner, after, first, later, heq, ho, hlater, rfl⟩ := exists_of_pulls_succ hpulls
      cases heq
      obtain ⟨calls, rfl⟩ : ∃ n, calls = n + 1 :=
        Nat.exists_eq_succ_of_ne_zero (Nat.ne_of_gt (hfewest.2 0 (Nat.succ_pos _)))
      by_cases hvalue : ∃ value, answer = some (.ok value)
      · obtain ⟨value, rfl⟩ := hvalue
        have hcontains := hseen value
        rcases hany : values.any (· == value) with _ | _
        · rw [hany] at hcontains
          have hfirst : ∀ rest, firstAnswers values (some (.ok value) :: rest) =
              some (.ok value) :: firstAnswers (value :: values) rest := by
            intro rest
            rw [firstAnswers, if_neg (by simp [hany])]
          obtain ⟨seen', hseen'⟩ := ih hlater (hseen.insert value)
            ((fewest_cons_of_first hfirst answers calls).mp hfewest)
          rw [hfirst]
          exact ⟨seen', pulls_cons (h.advance_unique_of_new hcontains ho) hseen'⟩
        · rw [hany] at hcontains
          obtain ⟨seen', hseen'⟩ := ih hlater hseen
            ((fewest_cons_of_any hany answers calls).mp hfewest)
          have hskip := pulls_succ_of_after (h.advance_unique_of_known hcontains ho) calls
          rw [firstAnswers, if_pos hany, hskip, hseen']
          exact ⟨seen', rfl⟩
      · have hfirst : ∀ rest, firstAnswers values (answer :: rest) =
            answer :: firstAnswers values rest := by
          intro rest
          rcases answer with _ | e | value
          · rfl
          · rfl
          · exact absurd ⟨value, rfl⟩ hvalue
        obtain ⟨seen', hseen'⟩ := ih hlater hseen
          ((fewest_cons_of_first hfirst answers calls).mp hfewest)
        have hanswer : ∀ value, answer ≠ some (.ok value) := fun value heq => hvalue ⟨value, heq⟩
        rw [hfirst]
        exact ⟨seen', pulls_cons (h.advance_unique_of_not_ok hanswer ho) hseen'⟩

/-- `unique` over a sequence that is read to its end. -/
theorem Descends.exists_pulls_unique_to_end (h : source.Descends) (cursor : Cursor)
    (state : State) :
    ∃ (items : List Item) (cursor' : Cursor) (seen' : Value.Seen) (state' : State) (trace : Trace),
      source.pulls (items.length + 1) cursor state =
          ⟨(items.map some ++ [none], cursor'), state', trace⟩ ∧
        source.unique.pulls ((distinct items).length + 1) (.unseen .empty cursor) state =
          ⟨((distinct items).map some ++ [none], .unseen seen' cursor'), state', trace⟩ := by
  obtain ⟨items, cursor', state', trace, hpulls⟩ := h.exists_pulls_to_end cursor state
  have hanswers : firstAnswers [] (items.map some ++ [none]) =
      (distinct items).map some ++ [none] := by
    have happend := firstAnswers_append_ends [] (items.map some) 1
    rw [List.replicate_one, firstAnswers_map_some, firsts_nil_eq_distinct] at happend
    exact happend
  -- Fewer answers lack the end, which is the last of those that stay.
  have hfewest : Fewest [] (items.map some ++ [none]) ((distinct items).length + 1) := by
    refine ⟨by simp [hanswers], fun j hj => ?_⟩
    rw [List.length_append, List.length_map, List.length_singleton] at hj
    rw [List.take_append_of_le_length (by simpa using Nat.le_of_lt_succ hj)]
    have hle := length_firstAnswers_take_le [] (items.map some) j
    rw [firstAnswers_map_some, firsts_nil_eq_distinct, List.length_map] at hle
    exact Nat.lt_succ_of_le hle
  have hlength : (items.map some ++ [none] : List (Option Item)).length = items.length + 1 := by
    simp
  rw [← hlength] at hpulls
  obtain ⟨seen', hunique⟩ := h.pulls_unique hpulls Value.Seen.holds_empty hfewest
  rw [hlength] at hpulls
  rw [hanswers] at hunique
  exact ⟨items, cursor', seen', state', trace, hpulls, hunique⟩

end Source

/-! ## Expressions -/

namespace Expr

/-- The filter for first occurrences makes no use of a lambda. -/
theorem source_unique (ctx : Context) (source : Expr) (lambda : Option Lambda) :
    (source.filtered .unique lambda).source ctx = (source.source ctx).unique :=
  Stage.source_expr ctx source (.unique lambda)

/-- **Equality is an equivalence that fingerprints respect, and `unique` removes exactly the
repetitions.** Lists are equal item by item, records by kind and by the values of their names,
query objects by what they refer to. Equal values have one fingerprint, which is all that a set of
values looks at before it compares.

Take any source, in any context, from any cursor and state on. Calls of `next` bring its items and
then find its end. `unique` brings of these items the failures and those values that equal no value
before them, and finds the end too; it makes the same steps to the same state. No two of its values
are equal, and every value of the source equals one of them. -/
theorem unique_drops_repetitions :
    (∀ a : Value, (a == a) = true) ∧
    (∀ a b : Value, (a == b) = true → (b == a) = true) ∧
    (∀ a b c : Value, (a == b) = true → (b == c) = true → (a == c) = true) ∧
    (∀ xs ys : List Value, (Value.list xs == .list ys) = true ↔
      List.Forall₂ (fun x y => (x == y) = true) xs ys) ∧
    (∀ (kind kind' : String) (xs ys : List (String × Value)),
      (Value.record kind xs == .record kind' ys) = true ↔
        kind = kind' ∧ ∀ name, Option.Rel (fun x y => (x == y) = true) (Named.lookup name xs)
          (Named.lookup name ys)) ∧
    (∀ ref ref' : QueryRef, (Value.query ref == .query ref') = true ↔ ref = ref') ∧
    (∀ a b : Value, (a == b) = true → a.fingerprint = b.fingerprint) ∧
    ∀ (ctx : Context) (source : Expr) (lambda : Option Lambda),
      let inner := source.source ctx
      let unique := (source.filtered .unique lambda).source ctx
      unique.start = .unseen .empty <$> inner.start ∧
      ∀ (cursor : Cursor) (state : State),
        ∃ (items : List Item) (cursor' : Cursor) (seen' : Value.Seen) (state' : State)
          (trace : Trace),
          let kept := Item.distinct items
          inner.pulls (items.length + 1) cursor state =
              ⟨(items.map some ++ [none], cursor'), state', trace⟩ ∧
            unique.pulls (kept.length + 1) (.unseen .empty cursor) state =
              ⟨(kept.map some ++ [none], .unseen seen' cursor'), state', trace⟩ ∧
            (kept.filterMap Item.value?).Pairwise (fun a b => (a == b) = false) ∧
            ∀ value, .ok value ∈ items → ∃ known, .ok known ∈ kept ∧ (known == value) = true := by
  refine ⟨Value.same_self, fun _ _ => Value.same_symm, fun _ _ _ => Value.same_trans,
    fun _ _ => Value.same_list_iff, fun _ _ _ _ => Value.same_record_iff, ?_,
    fun _ _ => Value.fingerprint_eq_of_same, ?_⟩
  · intro ref ref'
    exact decide_eq_true_iff
  · intro ctx source lambda inner unique
    have hunique : unique = inner.unique := source_unique ctx source lambda
    refine ⟨congrArg Source.start hunique, fun cursor state => ?_⟩
    obtain ⟨items, cursor', seen', state', trace, hpulls, hkept⟩ :=
      (source.source_descends ctx).exists_pulls_unique_to_end cursor state
    have hfirsts := Item.firsts_nil_eq_distinct items
    refine ⟨items, cursor', seen', state', trace, hpulls, ?_, ?_, ?_⟩
    · rw [hunique]
      exact hkept
    · rw [← hfirsts]
      exact Item.pairwise_firsts [] items
    · intro value hvalue
      rw [← hfirsts]
      obtain ⟨known, hknown, -⟩ | hkept := Item.exists_mem_firsts hvalue []
      · cases hknown
      · exact hkept

/-- Two records whose properties were set in another order are equal, and of the two `unique` keeps
the first. -/
theorem unique_drops_reordered_record :
    let a : Value := .record "unit" [("name", .string "core"), ("id", .id ⟨"u1"⟩)]
    let b : Value := .record "unit" [("id", .id ⟨"u1"⟩), ("name", .string "core")]
    let ctx : Context := ⟨.none, none, Catalog.queries []⟩
    let source : Expr := .literal (.list [a, b])
    (a == b) = true ∧ (b == a) = true ∧ a.fingerprint = b.fingerprint ∧
      ∃ seen', ((source.filtered .unique none).source ctx).pulls 2
          (.unseen .empty (.values [a, b])) .initial =
        ⟨([some (.ok a), none], .unseen seen' (.values [])), .initial, []⟩ := by
  intro a b ctx source
  have hab : (a == b) = true := rfl
  obtain ⟨-, hsymm, -, -, -, -, hfingerprint, hunique⟩ := unique_drops_repetitions
  refine ⟨hab, hsymm a b hab, hfingerprint a b hab, ?_⟩
  obtain ⟨items, cursor', seen', state', trace, hpulls, hkept, -⟩ :=
    (hunique ctx source none).2 (.values [a, b]) .initial
  have hread : source.source ctx = .ofValue (pure (.list [a, b])) := by
    rw [Expr.source, Expr.meaning]
    rfl
  rw [hread] at hpulls
  -- Three calls find the end, so there are two items.
  obtain ⟨rfl, rfl, rfl, rfl⟩ : items = [.ok a, .ok b] ∧ cursor' = .values [] ∧
      state' = .initial ∧ trace = [] := by
    rcases items with _ | ⟨first, _ | ⟨second, _ | ⟨third, rest⟩⟩⟩
    · cases hpulls
    · cases hpulls
    · cases hpulls
      exact ⟨rfl, rfl, rfl, rfl⟩
    · have hanswers := congrArg (fun o => o.value.1[2]?) hpulls
      cases hanswers
  have hdistinct : Item.distinct [.ok a, .ok b] = [.ok a] := by
    rw [← Item.firsts_nil_eq_distinct]
    rfl
  rw [hdistinct] at hkept
  exact ⟨seen', hkept⟩

end Expr

end RecordQuery
