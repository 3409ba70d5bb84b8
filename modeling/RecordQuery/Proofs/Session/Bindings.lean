import RecordQuery.Proofs.Eval.Progress
import RecordQuery.Session

/-!
# Bindings over a session

A session interleaves calls of the evaluator with bindings that are made and released from outside:
expressions are evaluated, predicates and lambdas applied, sequences opened, pulled on and
collected, in any order and with any number of sequences open at once.

* `Session.step_obeys`: one call of the evaluator is in every discipline of evaluation.
* `Session.step_later`: one call leaves every live binding as it was, whatever the call answers.
* **Main statement** (`Session.bindings_after_history`): over any history, the live bindings are
  what the commands `push` and `pop` alone make of those at the start, and a call made after that
  history changes neither the bindings nor what any variable resolves to.
-/

namespace RecordQuery

/-! ## Commands and the stack of bindings -/

namespace Command

/-- Whether a command calls the evaluator or a query object, rather than making or releasing a
binding from outside. -/
def isCall : Command → Bool
  | .push .. | .pop => false
  | _ => true

/-- Whether a command lets a query object get ready, clean up, or perform over a source of its
own. -/
def drivesQuery : Command → Bool
  | .pre _ | .post _ | .perform .. => true
  | _ => false

/-- What a command makes of the live bindings. -/
def onBindings : Command → List (String × Value) → List (String × Value)
  | .push name value, bindings => (name, value) :: bindings
  | .pop, bindings => bindings.tail
  | _, bindings => bindings

/-- Calls leave the stack of bindings alone. -/
theorem onBindings_of_isCall {command : Command} (h : command.isCall = true)
    (bindings : List (String × Value)) : command.onBindings bindings = bindings := by
  cases command
  case push | pop => cases h
  all_goals rfl

end Command

namespace Session

/-- The session after commands, executed in order. -/
def after (session : Session) (commands : List Command) : Session :=
  commands.foldl (fun session command => (session.step command).session) session

/-! ## One command -/

section discipline

variable (session : Session) {d : Discipline session.context.queries}

/-- A disciplined evaluation is disciplined as a command. -/
theorem run_obeys {α : Type} {eval : Eval α} (h : Eval.Obeys d eval)
    (reply : Except QueryError α → Reply) :
    d.Holds session.state (session.run eval reply).trace
      (session.run eval reply).session.state :=
  h session.state

/-- So is the opening of a sequence that is held. -/
theorem hold_obeys (handle : String) (origin : Expr) {start : Eval Cursor}
    (h : Eval.Obeys d start) :
    d.Holds session.state (session.hold handle origin start).trace
      (session.hold handle origin start).session.state := by
  have hstart := h session.state
  dsimp only [hold]
  split <;> exact hstart

/-- So is a pull on a sequence that is held. -/
theorem pull_obeys (handle : String) (sequence : Opened) :
    d.Holds session.state (session.pull handle sequence).trace
      (session.pull handle sequence).session.state := by
  have hadvance := (Expr.source_obeys d sequence.origin).advance sequence.cursor session.state
  dsimp only [pull]
  split <;> exact hadvance

/-- **What holds of every step of an evaluation holds of every call of the evaluator**, whatever the
call answers. -/
theorem step_obeys (d : Discipline session.context.queries) {command : Command}
    (h : command.isCall = true) (hdrives : command.drivesQuery = false) :
    d.Holds session.state (session.step command).trace (session.step command).session.state := by
  cases command with
  | push name value => cases h
  | pop => cases h
  | resolve name => exact session.run_obeys (Eval.obeys_resolve name) _
  | parameter ref => exact session.run_obeys (Eval.obeys_parameter session.context ref) _
  | isBound name => exact d.refl _
  | evaluate e => exact session.run_obeys (Expr.value_obeys d e) _
  | predicate e => exact session.run_obeys (Expr.isTrue_obeys d e) _
  | apply lambda argument => exact session.run_obeys ((lambda.meaning_obeys d).apply argument) _
  | test lambda argument => exact session.run_obeys ((lambda.meaning_obeys d).test argument) _
  | translate key =>
      simp only [step]
      split
      · exact d.refl _
      · exact Eval.obeys_translate (d := d) (fun _ _ => trivial) session.state
  | openSource handle e => exact session.hold_obeys handle e (Expr.source_obeys d e).start
  | take handle => exact session.hold_obeys handle _ Cursor.obeys_takeEverything
  | next handle =>
      simp only [step]
      split
      · exact session.pull_obeys handle _
      · exact d.refl _
  | collect handle =>
      simp only [step]
      split
      · rename_i sequence _
        exact (Expr.source_obeys d sequence.origin).drain sequence.cursor session.state
      · exact d.refl _
  | isMatch query candidate =>
      cases query with
      | matching name => exact d.test session.state name candidate
      | sequence name => exact d.refl _
  | perform query input => cases hdrives
  | pre query => cases hdrives
  | post query => cases hdrives

end discipline

/-- **One call keeps the bindings.** A call leads to a later state, in which the live bindings are
the same: whether it answers with a value, an item, the end or an error, and wherever in the
expression, in a lambda or below a query object the error arose. -/
theorem step_later (session : Session) {command : Command} (h : command.isCall = true) :
    session.state.Later (session.step command).session.state := by
  rcases hdrives : command.drivesQuery with _ | _
  · exact session.step_obeys (State.later session.context.queries) h hdrives
  · cases command with
    | perform query input => cases query <;> exact .refl _
    | pre query => cases query <;> exact .refl _
    | post query => cases query <;> exact .refl _
    | _ => cases hdrives

/-- What a command does to the live bindings. -/
theorem bindings_step (session : Session) (command : Command) :
    (session.step command).session.state.bindings =
      command.onBindings session.state.bindings := by
  by_cases h : command.isCall = true
  · rw [Command.onBindings_of_isCall h]
    exact (session.step_later h).bindings
  · cases command with
    | push name value => rfl
    | pop =>
        simp only [step]
        split <;> rename_i hb <;> simp [Command.onBindings, hb]
    | _ => exact absurd rfl h

/-- What a variable resolves to depends on the live bindings only. -/
theorem resolve_eq_of_bindings_eq {session other : Session}
    (h : session.state.bindings = other.state.bindings) (name : String) :
    (session.step (.resolve name)).reply = (other.step (.resolve name)).reply := by
  show Session.answer ((Eval.resolve name).run session.state).value =
    Session.answer ((Eval.resolve name).run other.state).value
  rw [Eval.run_resolve, Eval.run_resolve, h]

/-! ## Histories -/

/-- The stack of bindings after some commands is what they make of it one after the other, and only
pushing and popping make anything of it. -/
theorem bindings_after (session : Session) (commands : List Command) :
    (session.after commands).state.bindings =
      commands.foldl (fun bindings command => command.onBindings bindings)
        session.state.bindings := by
  induction commands generalizing session with
  | nil => rfl
  | cons command rest ih =>
      have hstep := session.bindings_step command
      rw [List.foldl_cons, ← hstep]
      exact ih (session.step command).session

/-- **Bindings are released on every way out.** Take a session with any context, state and open
sequences, and any history of commands. The live bindings (names, values and order) are what the
commands that make and release bindings make of those at the start; all other commands, whatever
they answered, had no part in them. A call made after the history leaves the bindings as they are,
hence their number and the innermost binding of every name. -/
theorem bindings_after_history (session : Session) (history : List Command) :
    (session.after history).state.bindings =
        history.foldl (fun bindings command => command.onBindings bindings)
          session.state.bindings ∧
      ∀ call : Command, call.isCall = true →
        ((session.after history).step call).session.state.bindings =
            (session.after history).state.bindings ∧
          ((session.after history).step call).session.state.depth =
            (session.after history).state.depth ∧
          ∀ name : String,
            (((session.after history).step call).session.step (.resolve name)).reply =
              ((session.after history).step (.resolve name)).reply := by
  refine ⟨session.bindings_after history, fun call hcall => ?_⟩
  have hb := ((session.after history).step_later hcall).bindings
  exact ⟨hb, congrArg List.length hb, resolve_eq_of_bindings_eq hb⟩

/-- A variable is bound twice, and a sequence that reads it is pulled on in between. The call that
follows fails in the lambda of the sequence; both bindings are there afterwards, and the innermost
is read. -/
theorem bindings_after_history_failing_call :
    let session := Session.start (Catalog.queries []) none
      (some [.ok (.integer 1), .ok (.string "a")]) .none
    let smaller := Expr.everything.select ⟨"y", .call .less [.var "y", .var "x"]⟩
    let history : List Command := [.push "x" (.integer 2), .openSource "s" smaller,
      .push "x" (.integer 9), .next "s"]
    let failed := (session.after history).step (.collect "s")
    Command.isCall (.collect "s") = true ∧
      failed.reply = .outcome (.error (.evaluation "<" 1 (.incomparable "string" "integer"))) ∧
      failed.session.state.bindings = [("x", .integer 9), ("x", .integer 2)] ∧
      failed.session.state.depth = 2 ∧
      (failed.session.step (.resolve "x")).reply = .outcome (.ok (.integer 9)) := by
  intro session smaller history failed
  obtain ⟨hbindings, hcalls⟩ := bindings_after_history session history
  obtain ⟨hkept, hdepth, hresolve⟩ := hcalls (.collect "s") rfl
  refine ⟨rfl, rfl, hkept.trans hbindings, ?_, (hresolve "x").trans rfl⟩
  exact hdepth.trans (congrArg List.length hbindings)

end Session

end RecordQuery
