import RecordQuery.Proofs.Catalog.Accounting
import RecordQuery.Proofs.Eval.SinglePass
import RecordQuery.Proofs.Session.Bindings

/-!
# The working set over a session

A session interleaves calls of the evaluator, and pulls on any number of open sequences, in any
order. All of them share one working set, which only ever moves on: from being there, to being taken
after so many pulls, to being taken after more pulls (`Session.workingSet_after`).

**Main statement** (`Session.workingSet_single_pass`): after any history, and at every point of any
call that follows it, the working set is all there and nobody has taken it, or it was taken, its
first so many items were delivered in order, each once, and whoever wants to take it again is
refused.
-/

namespace RecordQuery

/-! ## How the working set moves on -/

namespace WorkingSet.Later

variable {items : List Item} {after : WorkingSet}

/-- From a working set that was taken and read up to a position one comes to later positions. -/
theorem of_taken {n : Nat} (hn : n ≤ items.length)
    (h : Later (.taken (.ofItems (items.drop n))) after) :
    ∃ m, n ≤ m ∧ m ≤ items.length ∧ after = .taken (.ofItems (items.drop m)) := by
  cases h with
  | refl => exact ⟨n, Nat.le_refl n, hn, rfl⟩
  | pull _ k =>
      refine ⟨min (n + k) items.length, by omega, by omega, ?_⟩
      rw [Tape.drop_ofItems, List.drop_drop]
      by_cases hk : n + k ≤ items.length
      · rw [Nat.min_eq_left hk]
      · have hle : items.length ≤ n + k := by omega
        rw [Nat.min_eq_right hle, List.drop_length, List.drop_eq_nil_of_le hle]

/-- A working set that was there is there still, or was taken and read up to a position. -/
theorem of_available (h : Later (.available (.ofItems items)) after) :
    after = .available (.ofItems items) ∨
      ∃ n ≤ items.length, after = .taken (.ofItems (items.drop n)) := by
  cases h with
  | refl => exact .inl rfl
  | take _ k =>
      have htaken : Later (.taken (.ofItems (items.drop 0)))
          (.taken ((Tape.ofItems items).drop k)) := .pull (.ofItems items) k
      obtain ⟨n, -, hn, hafter⟩ := htaken.of_taken (Nat.zero_le _)
      exact .inr ⟨n, hn, hafter⟩

/-- Where there is no working set, none comes. -/
theorem of_unset (h : Later .unset after) : after = .unset := by
  cases h
  rfl

end WorkingSet.Later

namespace Session

/-! ## Histories -/

/-- No command gives the working set back. -/
theorem workingSet_step (session : Session) (command : Command) :
    session.state.workingSet.Later (session.step command).session.state.workingSet := by
  by_cases h : command.isCall = true
  · exact (session.step_later h).workingSet
  · cases command with
    | push name value => exact .refl _
    | pop =>
        simp only [step]
        split <;> exact .refl _
    | _ => exact absurd rfl h

/-- No history gives it back. -/
theorem workingSet_after (session : Session) (history : List Command) :
    session.state.workingSet.Later (session.after history).state.workingSet := by
  induction history generalizing session with
  | nil => exact .refl _
  | cons command rest ih => exact (session.workingSet_step command).trans (ih _)

/-- The surroundings of evaluations stay what they are. -/
theorem context_step (session : Session) (command : Command) :
    (session.step command).session.context = session.context := by
  cases command with
  | pop | translate key | next handle | collect handle =>
      simp only [step]
      split <;> first | rfl | (simp only [pull]; split <;> rfl)
  | openSource handle e | take handle =>
      simp only [step, hold]
      split <;> rfl
  | isMatch query | perform query | pre query | post query => cases query <;> rfl
  | _ => rfl

/-! ## Counting -/

/-- The events of commands that are executed in order. -/
def traceOf (session : Session) : List Command → Trace
  | [] => []
  | command :: rest =>
    (session.step command).trace ++ (session.step command).session.traceOf rest

/-- What an observer has counted in the end are the pulls of all commands. -/
theorem pulled_of_mem_getLast?_runFrom (session : Session) (history : List Command)
    (counted : Nat) :
    ∀ entry ∈ (session.runFrom counted history).getLast?,
      entry.pulled = counted + (session.traceOf history).pulls := by
  induction history generalizing session counted with
  | nil => intro entry hentry; cases hentry
  | cons command rest ih =>
      intro entry hentry
      rw [traceOf, Trace.pulls_append, ← Nat.add_assoc]
      rcases rest with _ | ⟨next, rest⟩
      · obtain rfl := Option.some.inj hentry
        rfl
      · rw [runFrom, runFrom, List.getLast?_cons_cons] at hentry
        exact ih _ _ entry hentry

/-- A command that lets no query object pull on a source of its own accounts for its pulls. -/
theorem step_accounts (session : Session) (haccounting : session.context.queries.Accounting)
    {command : Command} (hdrives : command.drivesQuery = false) :
    session.state.Accounts (session.step command).trace (session.step command).session.state := by
  by_cases h : command.isCall = true
  · exact session.step_obeys haccounting.discipline h hdrives
  · cases command with
    | push name value => exact .of_remaining_eq rfl rfl
    | pop =>
        simp only [step]
        split <;> exact .of_remaining_eq rfl rfl
    | _ => exact absurd rfl h

/-- So does every history of such commands. -/
theorem after_accounts (session : Session) (haccounting : session.context.queries.Accounting)
    {history : List Command} (hdrives : ∀ command ∈ history, command.drivesQuery = false) :
    session.state.Accounts (session.traceOf history) (session.after history).state := by
  induction history generalizing session with
  | nil => exact .of_remaining_eq rfl rfl
  | cons command rest ih =>
      rw [List.forall_mem_cons] at hdrives
      have hcontext := session.context_step command
      refine (session.step_accounts haccounting hdrives.1).trans (ih _ ?_ hdrives.2)
      rw [hcontext]
      exact haccounting

end Session

/-- The pulls on a source up to a position are as many as the items before it. -/
theorem Tape.pulls_pulled_ofItems (items : List Item) (n : Nat) :
    ((ofItems items).pulled n).pulls = min n items.length := by
  induction n generalizing items with
  | zero => simp
  | succ n ih =>
      rcases items with _ | ⟨item, rest⟩
      · rfl
      · have hrest := ih rest
        show Trace.pulls ([.pulled] ++ (ofItems rest).pulled n) = _
        rw [Trace.pulls_append, hrest, List.length_cons, Nat.add_min_add_right, Nat.add_comm]
        rfl

/-- The tape of a list has one pull for each item. -/
theorem Tape.length_ofItems (items : List Item) : (ofItems items).length = items.length := by
  induction items with
  | nil => rfl
  | cons item rest ih => exact congrArg (· + 1) ih

namespace Session

/-- What is left of the working set tells how many items an observer has counted. -/
theorem pulled_eq_of_remaining (session : Session) {items : List Item}
    (hset : session.state.remaining = .ofItems items)
    (haccounting : session.context.queries.Accounting) {history : List Command}
    (hdrives : ∀ command ∈ history, command.drivesQuery = false) {n : Nat}
    (hn : n ≤ items.length)
    (hleft : (session.after history).state.remaining = .ofItems (items.drop n)) :
    ∀ entry ∈ (session.runAll history).getLast?, entry.pulled = n := by
  intro entry hentry
  obtain ⟨m, hm, hpulls⟩ := session.after_accounts haccounting hdrives
  have hlength : items.length - m = items.length - n := by
    have hlengths := congrArg Tape.length (hm.symm.trans hleft)
    rw [hset, Tape.drop_ofItems, Tape.length_ofItems, Tape.length_ofItems, List.length_drop,
      List.length_drop] at hlengths
    exact hlengths
  rw [session.pulled_of_mem_getLast?_runFrom history 0 entry hentry, hpulls, hset,
    Tape.pulls_pulled_ofItems]
  omega

/-! ## The life of a working set -/

/-- What became of a working set over a history: its first `n` items were delivered. -/
structure HasDelivered (session : Session) (history : List Command) (items : List Item) (n : Nat) :
    Prop where
  /-- No more were delivered than there are. -/
  le : n ≤ items.length
  /-- The working set is untaken, or it was taken and the other items are left. -/
  workingSet :
    (session.after history).state.workingSet = .available (.ofItems items) ∧ n = 0 ∨
      (session.after history).state.workingSet = .taken (.ofItems (items.drop n))
  /-- If query objects pull on nothing but what they are handed, an observer has counted `n` pulls. -/
  pulled : session.context.queries.Accounting →
    (∀ command ∈ history, command.drivesQuery = false) →
      ∀ entry ∈ (session.runAll history).getLast?, entry.pulled = n
  /-- At every later moment the working set is still untaken, and the first consumer gets all of it,
  or no fewer items were delivered. -/
  moment : ∀ moment : State, (session.after history).state.workingSet.Later moment.workingSet →
    moment.Offers session.context (.ofItems items) ∧ n = 0 ∨
      ∃ m, n ≤ m ∧ moment.Delivered session.context items m

/-- After a history on a working set of some items, the first so many were delivered. -/
theorem exists_hasDelivered (session : Session) (history : List Command) {items : List Item}
    (hset : session.state.workingSet = .available (.ofItems items)) :
    ∃ n, session.HasDelivered history items n := by
  have hafter := session.workingSet_after history
  have hremaining : session.state.remaining = .ofItems items := by
    rw [State.remaining, hset]
  -- at a moment behind position `n` of a working set that was taken
  have htaken : ∀ n ≤ items.length, ∀ moment : State,
      WorkingSet.Later (.taken (.ofItems (items.drop n))) moment.workingSet →
        ∃ m, n ≤ m ∧ moment.Delivered session.context items m := by
    intro n hn moment hmoment
    obtain ⟨m, hnm, hm, hleft⟩ := hmoment.of_taken hn
    exact ⟨m, hnm, State.delivered_of_taken hm hleft⟩
  rw [hset] at hafter
  obtain hnow | ⟨n, hn, hnow⟩ := hafter.of_available
  · refine ⟨0, Nat.zero_le _, .inl ⟨hnow, rfl⟩, fun haccounting hdrives => ?_,
      fun moment hmoment => ?_⟩
    · refine session.pulled_eq_of_remaining hremaining haccounting hdrives (Nat.zero_le _) ?_
      rw [State.remaining, hnow, List.drop_zero]
    · rw [hnow] at hmoment
      obtain huntaken | ⟨n, hn, hmoment⟩ := hmoment.of_available
      · exact .inl ⟨State.offers_of_available huntaken, rfl⟩
      · obtain ⟨m, -, hm⟩ := htaken n hn moment (hmoment ▸ .refl _)
        exact .inr ⟨m, Nat.zero_le m, hm⟩
  · refine ⟨n, hn, .inr hnow, fun haccounting hdrives => ?_, fun moment hmoment => ?_⟩
    · refine session.pulled_eq_of_remaining hremaining haccounting hdrives hn ?_
      rw [State.remaining, hnow]
    · rw [hnow] at hmoment
      exact .inr (htaken n hn moment hmoment)

/-- **The working set is single-pass.** Take any session, with whatever context, bindings and open
sequences, and any history of commands, successful or failing, on it. Look at any moment of a call
that follows the history, in the midst of evaluations and under whatever bindings.

* Let the session have a working set of some items. After the history it is untaken, or it was taken
  and the first `n` items were delivered; if query objects pull on nothing but what they are handed,
  an observer has counted `n` pulls. At the moment, if it is still untaken, the first consumer gets
  all of it. Else it was taken and `m` items were delivered, no less than before: whoever takes it
  again is refused, and a pull, through whichever sequence, delivers the item at position `m` and
  moves on to `m + 1`. So the items that are ever delivered are the first ones, in order, each once.
* Let the session have no working set. Then it has none at the moment, nobody is refused, and every
  consumer gets the empty sequence.
* While `everything` is bound, the variable stands for its binding and the working set stays what it
  is. -/
theorem workingSet_single_pass (session : Session) (history : List Command) :
    (∀ items, session.state.workingSet = .available (.ofItems items) →
        ∃ n, session.HasDelivered history items n) ∧
      (session.state.workingSet = .unset →
        ∀ moment : State, (session.after history).state.workingSet.Later moment.workingSet →
          moment.OffersNothing session.context) ∧
      ∀ (moment : State) (value : Value),
        Named.lookup Expr.everythingName moment.bindings = some value →
          moment.Hides session.context value := by
  refine ⟨fun items hset => session.exists_hasDelivered history hset,
    fun hunset moment hmoment => ?_, fun moment value hbound => State.hides_of_bound hbound⟩
  have hafter := session.workingSet_after history
  rw [hunset] at hafter
  rw [hafter.of_unset] at hmoment
  exact State.offersNothing_of_unset hmoment.of_unset

/-- A working set of three items is opened, one item is pulled, and it is wanted again, which is
refused. An observer has counted one pull. When two items were delivered, a pull brings the third. -/
theorem workingSet_single_pass_three_items :
    let items : List Item := [.ok (.integer 1), .ok (.integer 2), .ok (.integer 3)]
    let session := Session.start (Catalog.queries []) none (some items) .none
    let history : List Command := [.openSource "s" .everything, .next "s", .evaluate .everything]
    let moment : State := ⟨[("everything", .boolean true)], .taken (.ofItems (items.drop 2))⟩
    session.context.queries.Accounting ∧
      (∀ entry ∈ (session.runAll history).getLast?, entry.pulled = 1) ∧
      (session.after history).state.workingSet.Later moment.workingSet ∧
      moment.Refuses session.context ∧
      Action.pull moment =
        ⟨some (.ok (.integer 3)), ⟨moment.bindings, .taken .spent⟩, [.pulled]⟩ ∧
      moment.Hides session.context (.boolean true) := by
  intro items session history moment
  have haccounting : session.context.queries.Accounting :=
    Catalog.registry_accounting [] Catalog.maxDepth
  have hafter : (session.after history).state.workingSet = .taken (.ofItems (items.drop 1)) := by
    rfl
  have hlater : (session.after history).state.workingSet.Later moment.workingSet := by
    rw [hafter]
    exact .pull (.ofItems (items.drop 1)) 1
  -- how much is left of the working set says how many items were delivered
  have hposition : ∀ {m n : Nat}, m ≤ items.length → n ≤ items.length →
      WorkingSet.taken (.ofItems (items.drop m)) = .taken (.ofItems (items.drop n)) → m = n := by
    intro m n hm hn h
    have hlengths := congrArg Tape.length (WorkingSet.taken.inj h)
    rw [Tape.length_ofItems, Tape.length_ofItems, List.length_drop, List.length_drop] at hlengths
    omega
  obtain ⟨hdelivers, -, hhides⟩ := workingSet_single_pass session history
  obtain ⟨n, hn⟩ := hdelivers items rfl
  obtain ⟨huntaken, -⟩ | hleft := hn.workingSet
  · rw [hafter] at huntaken
    cases huntaken
  obtain rfl : 1 = n := hposition (by decide) hn.le (hafter.symm.trans hleft)
  obtain ⟨-, hzero⟩ | ⟨m, -, hm⟩ := hn.moment moment hlater
  · cases hzero
  obtain rfl : 2 = m := hposition (by decide) hm.le hm.workingSet
  refine ⟨haccounting, hn.pulled haccounting ?_, hlater, hm.refuses, hm.pull,
    hhides moment (.boolean true) rfl⟩
  decide

end Session

end RecordQuery
