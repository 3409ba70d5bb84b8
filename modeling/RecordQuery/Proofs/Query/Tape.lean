import RecordQuery.Query.Tape

/-!
# Positions on a tape

How far a tape was read is told by a number of pulls: `Tape.drop n` is what is left after `n` pulls,
and `Tape.pulled n` is what those pulls left in the trace. `Tape.items` are the items that a reader
who pulls to the end meets. Whether the end is still to be found makes no difference to a reader if
finding it leaves no trace: `Tape.plain` is the tape on which such an end is not to be found.
-/

namespace RecordQuery.Tape

/-- What is left of a tape after so many pulls. -/
def drop : Nat → Tape → Tape
  | 0, tape => tape
  | n + 1, .step _ _ rest => drop n rest
  | _ + 1, .closing _ => .spent
  | _ + 1, .spent => .spent

/-- The events of the first so many pulls. -/
def pulled : Nat → Tape → Trace
  | 0, _ => []
  | n + 1, .step trace _ rest => trace ++ pulled n rest
  | _ + 1, .closing trace => trace
  | _ + 1, .spent => []

/-- The items up to the end. -/
def items : Tape → List Item
  | .step _ item rest => item :: items rest
  | .closing _ => []
  | .spent => []

/-- Without a pull the whole tape is left. -/
@[simp] theorem drop_zero (tape : Tape) : tape.drop 0 = tape := by
  cases tape <;> rfl

/-- No pulls leave no trace. -/
@[simp] theorem pulled_zero (tape : Tape) : tape.pulled 0 = [] := by
  cases tape <;> rfl

/-- A tape that was read to the end stays so. -/
@[simp] theorem drop_spent (n : Nat) : spent.drop n = spent := by
  cases n <;> rfl

/-- Pulls behind the end leave no trace. -/
@[simp] theorem pulled_spent (n : Nat) : spent.pulled n = [] := by
  cases n <;> rfl

/-- What two runs of pulls leave is what all of them together leave. -/
theorem drop_drop (n m : Nat) (tape : Tape) : (tape.drop n).drop m = tape.drop (n + m) := by
  induction n generalizing tape with
  | zero => simp
  | succ n ih =>
      rw [Nat.succ_add]
      cases tape with
      | step trace item rest => exact ih rest
      | closing trace => exact drop_spent m
      | spent => exact drop_spent m

/-- Every pull shortens the tape by one, as long as there is something to pull. -/
theorem length_drop (n : Nat) (tape : Tape) : (tape.drop n).length = tape.length - n := by
  induction n generalizing tape with
  | zero => simp
  | succ n ih =>
      cases tape with
      | step trace item rest =>
          have := ih rest
          simp only [drop, length]
          omega
      | closing trace => simp [drop, length]
      | spent => simp [drop, length]

/-- Pulls beyond the end leave nothing more. -/
theorem drop_min_length (n : Nat) (tape : Tape) : tape.drop (min n tape.length) = tape.drop n := by
  induction n generalizing tape with
  | zero => simp
  | succ n ih =>
      cases tape with
      | step trace item rest =>
          rw [length, Nat.add_min_add_right, drop, drop, ih rest]
      | closing trace => simp [length, drop]
      | spent => simp

/-- Pulling does not make items come. -/
theorem itemCount_drop_le (n : Nat) (tape : Tape) : (tape.drop n).itemCount ≤ tape.itemCount := by
  induction n generalizing tape with
  | zero => simp
  | succ n ih =>
      cases tape with
      | step trace item rest => exact Nat.le_succ_of_le (ih rest)
      | closing trace => exact Nat.le_refl 0
      | spent => exact Nat.le_refl 0

/-- The events of a reading in two parts. -/
theorem pulled_add (n m : Nat) (tape : Tape) :
    tape.pulled (n + m) = tape.pulled n ++ (tape.drop n).pulled m := by
  induction n generalizing tape with
  | zero => simp
  | succ n ih =>
      rw [Nat.succ_add]
      cases tape with
      | step trace item rest => simp [pulled, drop, ih rest]
      | closing trace => simp [pulled, drop]
      | spent => simp [pulled, drop]

/-- Pulls beyond the end leave no trace. -/
theorem pulled_min_length (n : Nat) (tape : Tape) :
    tape.pulled (min n tape.length) = tape.pulled n := by
  induction n generalizing tape with
  | zero => simp
  | succ n ih =>
      cases tape with
      | step trace item rest =>
          rw [length, Nat.add_min_add_right, pulled, pulled, ih rest]
      | closing trace => simp [length, pulled]
      | spent => simp [length]

/-! ## The end -/

/-- The tape on which the end is still to be found only if that leaves a trace. -/
def plain : Tape → Tape
  | .step trace item rest => .step trace item rest.plain
  | .closing [] => .spent
  | .closing (event :: later) => .closing (event :: later)
  | .spent => .spent

/-- An end that leaves a trace is still to be found in the plain form. -/
theorem plain_closing_of_ne_nil {trace : Trace} (h : trace ≠ []) :
    (closing trace).plain = .closing trace := by
  cases trace with
  | nil => exact absurd rfl h
  | cons event later => rfl

/-- A tape is read up to its end as its plain form is. -/
theorem exists_of_plain_eq_step {tape rest : Tape} {trace : Trace} {item : Item}
    (h : tape.plain = (step trace item rest).plain) :
    ∃ rest', tape = .step trace item rest' ∧ rest'.plain = rest.plain := by
  cases tape with
  | step trace' item' rest' =>
      obtain ⟨rfl, rfl, hrest⟩ := Tape.step.inj h
      exact ⟨rest', rfl, hrest⟩
  | closing trace' => cases trace' <;> cases h
  | spent => cases h

/-- Finding an end leaves what it leaves on the plain form of the tape. -/
theorem eq_of_plain_eq_closing {tape : Tape} {trace : Trace} (htrace : trace ≠ [])
    (h : tape.plain = (closing trace).plain) : tape = .closing trace := by
  rw [plain_closing_of_ne_nil htrace] at h
  cases tape with
  | step => cases h
  | closing trace' =>
      cases trace' with
      | nil => cases h
      | cons event later => exact h
  | spent => cases h

/-- The tapes of which nothing but a silent end is left. -/
theorem eq_of_plain_eq_spent {tape : Tape} (h : tape.plain = .spent) :
    tape = .spent ∨ tape = .closing [] := by
  cases tape with
  | step => cases h
  | closing trace =>
      cases trace with
      | nil => exact .inr rfl
      | cons => cases h
  | spent => exact .inl rfl

/-- The plain tape has as many items. -/
@[simp] theorem itemCount_plain (tape : Tape) : tape.plain.itemCount = tape.itemCount := by
  induction tape with
  | step trace item rest ih => exact congrArg (· + 1) ih
  | closing trace => cases trace <;> rfl
  | spent => rfl

/-- A plain tape is plain already. -/
theorem plain_plain (tape : Tape) : tape.plain.plain = tape.plain := by
  induction tape with
  | step trace item rest ih => exact congrArg (Tape.step trace item) ih
  | closing trace => cases trace <;> rfl
  | spent => rfl

/-- What is left of a tape has the plain form of what is left of its plain form. -/
theorem plain_drop (n : Nat) (tape : Tape) : (tape.plain.drop n).plain = (tape.drop n).plain := by
  induction n generalizing tape with
  | zero => rw [drop_zero, drop_zero, plain_plain]
  | succ n ih =>
      cases tape with
      | step trace item rest => exact ih rest
      | closing trace => cases trace <;> rfl
      | spent => rfl

/-- Tapes of the same plain form leave tapes of the same plain form. -/
theorem plain_drop_congr {tape tape' : Tape} (h : tape'.plain = tape.plain) (n : Nat) :
    (tape'.drop n).plain = (tape.drop n).plain := by
  rw [← plain_drop n tape', h, plain_drop]

/-! ## Tapes of lists -/

/-- The items of the tape of a list are the list. -/
@[simp] theorem items_ofItems (items : List Item) : (ofItems items).items = items := by
  induction items with
  | nil => rfl
  | cons item rest ih => simp [ofItems, Tape.items, ih]

/-- The tape of some values has one item for each. -/
@[simp] theorem itemCount_ofValues (values : List Value) :
    (ofValues values).itemCount = values.length := by
  induction values with
  | nil => rfl
  | cons value rest ih => exact congrArg (· + 1) ih

end RecordQuery.Tape
