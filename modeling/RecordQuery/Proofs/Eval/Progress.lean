import RecordQuery.Proofs.Eval.Discipline.Meanings
import RecordQuery.Proofs.Query.Tape

/-!
# What evaluation does to the state

`State.Later` relates a state to those that evaluation can reach from it: the live bindings are the
same, names, values and order, and the working set is where it was, or was taken, or was read
further. It is a discipline (`State.later`), so all of this holds of every run of every expression,
whether it gives a value, an item, the end, or an error.

From it come the two facts that other developments use: evaluation never adds to what is left of
the working set (`State.Later.remaining_itemCount_le`), and without a working set it leaves the state
as it was (`State.Later.eq_of_unset`).
-/

namespace RecordQuery

/-! ## The relation -/

/-- The working sets that evaluation can make of a working set. -/
inductive WorkingSet.Later : WorkingSet → WorkingSet → Prop
  /-- It was not touched. -/
  | refl (workingSet : WorkingSet) : Later workingSet workingSet
  /-- It was taken, and so many pulls were made. -/
  | take (tape : Tape) (n : Nat) : Later (.available tape) (.taken (tape.drop n))
  /-- It was taken before, and so many more pulls were made. -/
  | pull (tape : Tape) (n : Nat) : Later (.taken tape) (.taken (tape.drop n))

/-- What can be made of a working set in two runs can be made of it in one. -/
theorem WorkingSet.Later.trans {w₁ w₂ w₃ : WorkingSet} (h : w₁.Later w₂) (h' : w₂.Later w₃) :
    w₁.Later w₃ := by
  cases h with
  | refl => exact h'
  | take tape n =>
      cases h' with
      | refl => exact .take tape n
      | pull _ m =>
          rw [Tape.drop_drop]
          exact .take tape (n + m)
  | pull tape n =>
      cases h' with
      | refl => exact .pull tape n
      | pull _ m =>
          rw [Tape.drop_drop]
          exact .pull tape (n + m)

namespace State

/-- The states that evaluation can reach from a state. -/
structure Later (before after : State) : Prop where
  /-- The live bindings are the same. -/
  bindings : after.bindings = before.bindings
  /-- The working set may have been taken and read. -/
  workingSet : before.workingSet.Later after.workingSet

namespace Later

/-- A state can be reached from itself. -/
theorem refl (state : State) : state.Later state :=
  ⟨rfl, .refl _⟩

/-- What can be reached in two runs can be reached in one. -/
theorem trans {s₁ s₂ s₃ : State} (h : s₁.Later s₂) (h' : s₂.Later s₃) : s₁.Later s₃ :=
  ⟨h'.bindings.trans h.bindings, h.workingSet.trans h'.workingSet⟩

/-- What is left of the working set is what some pulls leave. -/
theorem exists_remaining_eq {before after : State} (h : before.Later after) :
    ∃ n, after.remaining = before.remaining.drop n := by
  obtain ⟨_, hw⟩ := h
  unfold State.remaining
  generalize after.workingSet = w, before.workingSet = w' at hw ⊢
  cases hw with
  | refl => exact ⟨0, (Tape.drop_zero _).symm⟩
  | take tape n => exact ⟨n, rfl⟩
  | pull tape n => exact ⟨n, rfl⟩

/-- Evaluation never adds to what is left of the working set. -/
theorem remaining_itemCount_le {before after : State} (h : before.Later after) :
    after.remaining.itemCount ≤ before.remaining.itemCount := by
  obtain ⟨n, hn⟩ := h.exists_remaining_eq
  rw [hn]
  exact Tape.itemCount_drop_le n _

/-- A working set that was taken stays taken. -/
theorem exists_taken {before after : State} (h : before.Later after) {tape : Tape}
    (htaken : before.workingSet = .taken tape) :
    ∃ n, after.workingSet = .taken (tape.drop n) := by
  obtain ⟨_, hw⟩ := h
  rw [htaken] at hw
  generalize after.workingSet = w at hw ⊢
  cases hw with
  | refl => exact ⟨0, by rw [Tape.drop_zero]⟩
  | pull _ n => exact ⟨n, rfl⟩

/-- Without a working set, evaluation leaves the state as it was. -/
theorem eq_of_unset {before after : State} (h : before.Later after)
    (hunset : before.workingSet = .unset) : after = before := by
  obtain ⟨hb, hw⟩ := h
  rw [hunset] at hw
  generalize hafter : after.workingSet = w at hw
  cases hw with
  | refl =>
      cases before
      cases after
      simp_all

end Later

end State

/-! ## The discipline -/

/-- A pull leads to a later state. -/
theorem Action.later_pull (state : State) : state.Later (Action.pull state).state := by
  unfold Action.pull
  split
  · rename_i trace item rest hw
    refine ⟨rfl, ?_⟩
    rw [hw]
    exact .pull (.step trace item rest) 1
  · rename_i trace hw
    refine ⟨rfl, ?_⟩
    rw [hw]
    exact .pull (.closing trace) 1
  · exact .refl state

/-- Evaluation goes from a state to later ones. -/
def State.later (queries : Registry) : Discipline queries where
  Holds before _ after := before.Later after
  refl := .refl
  trans := .trans
  scope name value h := ⟨by rw [h.bindings]; rfl, h.workingSet⟩
  lookup state _ _ _ := .refl state
  take state tape h := ⟨rfl, by rw [h]; exact Tape.drop_zero tape ▸ .take tape 0⟩
  pull := Action.later_pull
  test state _ _ := .refl state
  streaming _ _ _ state := .refl state
  performing _ state pulls h := h.holds_stateAfter .refl .trans _

/-! ## Evaluations that lead to later states -/

section

variable {α : Type} {queries : Registry}

/-- Every run of the action leads to a later state. -/
def Action.Advances (action : Action α) : Prop :=
  ∀ state : State, state.Later (action state).state

/-- Every run of the evaluation leads to a later state. -/
def Eval.Advances (eval : Eval α) : Prop :=
  ∀ state : State, state.Later (eval.run state).state

/-- A result that is at hand leads to the same state. -/
theorem Eval.advances_pure (a : α) : (pure a : Eval α).Advances :=
  State.Later.refl

/-- Actions that keep to the discipline lead to later states. -/
theorem Action.Obeys.advances {action : Action α}
    (h : Action.Obeys (State.later queries) action) : action.Advances :=
  h

/-- So do evaluations that keep to it. -/
theorem Eval.Obeys.advances {eval : Eval α} (h : Eval.Obeys (State.later queries) eval) :
    eval.Advances :=
  h

end

end RecordQuery
