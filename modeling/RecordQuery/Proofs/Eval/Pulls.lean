import RecordQuery.Proofs.Eval.Descent

/-!
# Pulls on filters

What a pull on a filtered sequence comes to, told from what a pull on its source comes to, or from
what looking for an item in it does:

* a filter that looks at each item on its own (`Source.run_advance_mapping`);
* `unique`, which drops a value that it has seen (`Source.Descends.advance_unique_of_known`), passes
  a new one on (`Source.Descends.advance_unique_of_new`), and with it all that is no value
  (`Source.Descends.advance_unique_of_not_ok`);
* `limit`, as long as something is left (`Source.run_advance_limited`).
-/

namespace RecordQuery.Source

variable {source : Source} {cursor inner : Cursor} {state after : State} {trace : Trace}
  {answer : Option Item} {accept : Item → Action (Option Item)}

/-! ## Filters that look at each item on its own -/

/-- A pull on a filtered sequence. -/
theorem advance_mapping_derived (source : Source) (accept : Item → Action (Option Item))
    (inner : Cursor) :
    (source.mapping accept).advance (.derived inner) = (do
      let (item, inner) ← source.seek accept inner
      return (item, .derived inner)) := rfl

/-- What is looked for is what a pull on the filtered sequence brings. -/
theorem run_advance_mapping
    (h : source.seek accept cursor state = ⟨(answer, inner), after, trace⟩) :
    (source.mapping accept).advance (.derived cursor) state =
      ⟨(answer, .derived inner), after, trace⟩ := by
  rw [advance_mapping_derived, Action.bind_eq_after, h]
  exact congrArg (Outcome.mk _ _) (List.append_nil trace)

/-- What looking comes to from elsewhere, a pull on the filtered sequence comes to. -/
theorem advance_mapping_of_after
    (h : source.seek accept cursor state = (source.seek accept inner after).after trace) :
    (source.mapping accept).advance (.derived cursor) state =
      ((source.mapping accept).advance (.derived inner) after).after trace := by
  rw [advance_mapping_derived, advance_mapping_derived]
  exact Action.bind_of_after h _

/-- A sequence on which a pull comes to what it comes to from elsewhere is looked through alike. -/
theorem Descends.seek_of_after (h : source.Descends) (ha : ∀ item, (accept item).Advances)
    (hpull : source.advance cursor state = (source.advance inner after).after trace) :
    source.seek accept cursor state = (source.seek accept inner after).after trace := by
  rw [h.seek_eq ha cursor, h.seek_eq ha inner]
  exact Action.bind_of_after hpull _

/-! ## First occurrences -/

section unique

variable (h : source.Descends) {seen : Value.Seen} {value : Value}

include h

/-- A repetition is dropped, and the next answer is looked for. -/
theorem Descends.advance_unique_of_known (hknown : seen.contains value = true)
    (ho : source.advance cursor state = ⟨(some (.ok value), inner), after, trace⟩) :
    source.unique.advance (.unseen seen cursor) state =
      (source.unique.advance (.unseen seen inner) after).after trace := by
  let accept : Item → Action (Option Item) :=
    onValues fun value => pure (if seen.contains value then none else some value)
  have haccept : accept (.ok value) after = ⟨none, after, []⟩ := by
    simp only [accept, onValues, hknown, if_true]
    rfl
  have hseek := h.run_seek_of_refused (advances_unseen seen) ho haccept
  rw [List.append_nil] at hseek
  exact Action.bind_of_after hseek _

/-- A value that equals none before it is passed on. -/
theorem Descends.advance_unique_of_new (hnew : seen.contains value = false)
    (ho : source.advance cursor state = ⟨(some (.ok value), inner), after, trace⟩) :
    source.unique.advance (.unseen seen cursor) state =
      ⟨(some (.ok value), .unseen (seen.insert value) inner), after, trace⟩ := by
  let accept : Item → Action (Option Item) :=
    onValues fun value => pure (if seen.contains value then none else some value)
  have haccept : accept (.ok value) after = ⟨some (.ok value), after, []⟩ := by
    simp only [accept, onValues, hnew, Bool.false_eq_true, if_false]
    rfl
  have hseek := h.run_seek_of_accepted (advances_unseen seen) ho haccept
  rw [List.append_nil] at hseek
  show (source.seek accept cursor >>= _) state = _
  rw [Action.bind_eq_after, hseek]
  exact congrArg (Outcome.mk _ _) (List.append_nil trace)

/-- Failures and the end are passed on. -/
theorem Descends.advance_unique_of_not_ok (hanswer : ∀ value, answer ≠ some (.ok value))
    (ho : source.advance cursor state = ⟨(answer, inner), after, trace⟩) :
    source.unique.advance (.unseen seen cursor) state =
      ⟨(answer, .unseen seen inner), after, trace⟩ := by
  let accept : Item → Action (Option Item) :=
    onValues fun value => pure (if seen.contains value then none else some value)
  have hseek : source.seek accept cursor state = ⟨(answer, inner), after, trace⟩ := by
    rcases answer with _ | e | value
    · exact h.run_seek_of_end (advances_unseen seen) ho
    · have haccept : accept (.error e) after = ⟨some (.error e), after, []⟩ := rfl
      have hfound := h.run_seek_of_accepted (advances_unseen seen) ho haccept
      rwa [List.append_nil] at hfound
    · exact absurd rfl (hanswer value)
  show (source.seek accept cursor >>= _) state = _
  rw [Action.bind_eq_after, hseek]
  rcases answer with _ | e | value
  · exact congrArg (Outcome.mk _ _) (List.append_nil trace)
  · exact congrArg (Outcome.mk _ _) (List.append_nil trace)
  · exact absurd rfl (hanswer value)

end unique

/-! ## Limits -/

/-- A limit that is at hand is applied when the source is opened. -/
theorem start_limited_pure (source : Source) (count : Nat) :
    (source.limited (pure count)).start = Cursor.atMost count <$> source.start := by
  show (pure count >>= fun count => source.start >>= fun cursor =>
    pure (Cursor.atMost count cursor)) = _
  rw [pure_bind, map_eq_pure_bind]

/-- As long as something is left, a pull on a limited sequence is a pull on its source. -/
theorem run_advance_limited (count : Eval Nat) (left : Nat)
    (h : source.advance cursor state = ⟨(answer, inner), after, trace⟩) :
    (source.limited count).advance (.atMost (left + 1) cursor) state =
      ⟨(answer, .atMost left inner), after, trace⟩ := by
  show (source.advance cursor >>= fun found => pure (found.1, Cursor.atMost left found.2)) state = _
  rw [Action.bind_eq_after, h]
  exact congrArg (Outcome.mk _ _) (List.append_nil trace)

end RecordQuery.Source
