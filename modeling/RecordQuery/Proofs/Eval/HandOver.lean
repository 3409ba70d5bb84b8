import RecordQuery.Proofs.Driver.Selection
import RecordQuery.Proofs.Eval.Discipline

/-!
# Tapes that are handed on

A sequence that is handed to a reader outside becomes the tape of its pulls. If it reads a tape
itself, be it the working set or values at hand, the reader is handed that tape, with one
difference: the end of the handed tape is still to be found (`Tape.handed`), even where the reading
has found it before and finding it again leaves no trace.

* `Source.pullsWithin_everything`: the working set is handed on as it is, and what the reader leaves
  is left in it.
* `Source.pullsWithin_values`: values at hand are handed on, and the state is left alone.
* `Tape.drop_of_handed`: a reader that reads equally far on both tapes leaves the same of the first.
-/

namespace RecordQuery

/-! ## Handed tapes -/

namespace Tape

/-- The tape with an end that is still to be found. -/
def handed : Tape → Tape
  | .step trace item rest => .step trace item rest.handed
  | .closing trace => .closing trace
  | .spent => .closing []

/-- What is handed on has the plain form that it had. -/
theorem plain_handed (tape : Tape) : tape.handed.plain = tape.plain := by
  induction tape with
  | step trace item rest ih => exact congrArg (Tape.step trace item) ih
  | closing trace => rfl
  | spent => rfl

/-- Either a tape is handed on without any difference, or all that can be left of it is plain. -/
theorem handed_eq_or_plain_drop (tape : Tape) :
    tape.handed = tape ∨ ∀ n, (tape.drop n).plain = tape.drop n := by
  induction tape with
  | step trace item rest ih =>
      rcases ih with hrest | hrest
      · exact .inl (congrArg (Tape.step trace item) hrest)
      · refine .inr fun n => ?_
        cases n with
        | zero =>
            have hzero := hrest 0
            rw [drop_zero] at hzero ⊢
            exact congrArg (Tape.step trace item) hzero
        | succ n => exact hrest n
  | closing trace => exact .inl rfl
  | spent =>
      refine .inr fun n => ?_
      rw [drop_spent]
      rfl

/-- The pulls that are made on a handed tape leave of the tape itself what a reader leaves that
reads it directly, if the two readers leave the same but for the end. -/
theorem drop_of_handed {tape rest rest' : Tape} (hrest : ∃ n, rest = tape.drop n)
    (hrest' : ∃ n, rest' = tape.handed.drop n) (hplain : rest'.plain = rest.plain)
    (hsame : tape.handed = tape → rest' = rest) :
    tape.drop (tape.handed.length - rest'.length) = rest := by
  obtain ⟨n, rfl⟩ := hrest
  obtain ⟨m, hm⟩ := hrest'
  have hmade : tape.handed.length - rest'.length = min m tape.handed.length := by
    rw [hm, length_drop]
    omega
  rw [hmade]
  rcases handed_eq_or_plain_drop tape with hhanded | hdrop
  · rw [hhanded, drop_min_length, ← hsame hhanded, hm, hhanded]
  · calc
      tape.drop (min m tape.handed.length)
        = (tape.drop (min m tape.handed.length)).plain := (hdrop _).symm
      _ = (tape.handed.drop (min m tape.handed.length)).plain :=
          (plain_drop_congr tape.plain_handed _).symm
      _ = rest'.plain := by rw [drop_min_length, ← hm]
      _ = (tape.drop n).plain := hplain
      _ = tape.drop n := hdrop n

end Tape

/-! ## What is handed on -/

namespace Source

variable {source : Source}

/-- The working set is handed on. After so many pulls, so many are gone from it. -/
theorem pullsWithin_everything {fuel : Nat} {tape : Tape} (hfuel : tape.itemCount < fuel)
    (bindings : List (String × Value)) :
    tapeOf (everything.pullsWithin fuel .workingSet ⟨bindings, .taken tape⟩) = tape.handed ∧
      ∀ made, stateAfter ⟨bindings, .taken tape⟩
          (everything.pullsWithin fuel .workingSet ⟨bindings, .taken tape⟩) made =
        ⟨bindings, .taken (tape.drop made)⟩ := by
  have hadvance : everything.advance = Cursor.read := rfl
  induction tape generalizing fuel with
  | step trace item rest ih =>
      cases fuel with
      | zero => cases hfuel
      | succ fuel =>
          obtain ⟨htape, hstates⟩ := ih (Nat.lt_of_succ_lt_succ hfuel)
          rw [pullsWithin, hadvance, Cursor.read_workingSet_step]
          refine ⟨congrArg (Tape.step trace item) htape, fun made => ?_⟩
          cases made with
          | zero => exact stateAfter_zero _ _
          | succ made =>
              rw [stateAfter_cons]
              exact hstates made
  | closing trace =>
      cases fuel with
      | zero => cases hfuel
      | succ fuel =>
          rw [pullsWithin, hadvance, Cursor.read_workingSet_closing]
          refine ⟨rfl, fun made => ?_⟩
          cases made with
          | zero => exact stateAfter_zero _ _
          | succ made =>
              rw [stateAfter_cons]
              exact stateAfter_nil _ _
  | spent =>
      cases fuel with
      | zero => cases hfuel
      | succ fuel =>
          rw [pullsWithin, hadvance, Cursor.read_workingSet_spent]
          refine ⟨rfl, fun made => ?_⟩
          cases made with
          | zero => exact stateAfter_zero _ _
          | succ made =>
              rw [stateAfter_cons, Tape.drop_spent]
              exact stateAfter_nil _ _

/-- Values at hand are handed on, and reading them leaves the state alone. -/
theorem pullsWithin_values
    (hadvance : ∀ values, source.advance (.values values) = Cursor.read (.values values))
    {fuel : Nat} {values : List Value} (hfuel : values.length < fuel) (state : State) :
    tapeOf (source.pullsWithin fuel (.values values) state) = (Tape.ofValues values).handed ∧
      ∀ made, stateAfter state (source.pullsWithin fuel (.values values) state) made = state := by
  induction values generalizing fuel with
  | nil =>
      cases fuel with
      | zero => cases hfuel
      | succ fuel =>
          rw [pullsWithin, hadvance]
          refine ⟨rfl, fun made => ?_⟩
          cases made with
          | zero => exact stateAfter_zero _ _
          | succ made => exact (stateAfter_cons _ _ _ made).trans (stateAfter_nil _ _)
  | cons value rest ih =>
      cases fuel with
      | zero => cases hfuel
      | succ fuel =>
          obtain ⟨htape, hstates⟩ := ih (Nat.lt_of_succ_lt_succ hfuel)
          rw [pullsWithin, hadvance]
          refine ⟨congrArg (Tape.step [] (.ok value)) htape, fun made => ?_⟩
          cases made with
          | zero => exact stateAfter_zero _ _
          | succ made => exact (stateAfter_cons _ _ _ made).trans (hstates made)

end Source

end RecordQuery
