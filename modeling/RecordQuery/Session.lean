import RecordQuery.Catalog

/-!
# Sessions

A session is one evaluation state under a series of commands: variables are bound and released,
expressions evaluated, sequences opened, pulled on and collected, query objects called. Sequences
that are open are held under names; they read variables when they are pulled on, so that bindings
made between two pulls count.

Every command has a `Reply`, and `Session.Entry` records with it what an observer sees of the
session so far.
-/

namespace RecordQuery

/-! ## Commands -/

/-- A step of a session. -/
inductive Command where
  /-- Binds a variable until it is popped. -/
  | push (name : String) (value : Value)
  /-- Releases the innermost binding. -/
  | pop
  /-- Reads a variable. -/
  | resolve (name : String)
  /-- Reads a parameter. -/
  | parameter (ref : ParameterRef)
  /-- Asks whether a variable has a binding. -/
  | isBound (name : String)
  /-- Evaluates an expression. -/
  | evaluate (e : Expr)
  /-- Evaluates a predicate. -/
  | predicate (e : Expr)
  /-- Applies a lambda to an argument. -/
  | apply (lambda : Lambda) (argument : Value)
  /-- Tests an argument with a lambda. -/
  | test (lambda : Lambda) (argument : Value)
  /-- Looks a translation up. -/
  | translate (key : String)
  /-- Opens an expression as a sequence and holds it under a name. -/
  | openSource (handle : String) (e : Expr)
  /-- Takes the working set and holds it under a name. -/
  | take (handle : String)
  /-- Pulls one item from an open sequence. -/
  | next (handle : String)
  /-- Collects what is left of an open sequence. -/
  | collect (handle : String)
  /-- Tests a candidate with a query object. -/
  | isMatch (query : QueryRef) (candidate : Value)
  /-- Lets a query object perform over a source. -/
  | perform (query : QueryRef) (input : List Item)
  /-- Lets a query object get ready. -/
  | pre (query : QueryRef)
  /-- Lets a query object clean up. -/
  | post (query : QueryRef)

/-- The translations of a session, with the text of a key. -/
structure TranslationReport where
  /-- The locale of the caller. -/
  locale : String
  /-- Whether a key without a text stands for itself. -/
  fallback : Bool
  /-- The text of the key. -/
  text : Option String

/-- The answer to a command. -/
inductive Reply where
  /-- It is done. -/
  | done
  /-- Yes or no. -/
  | flag (b : Bool)
  /-- A value, or why there is none. -/
  | outcome (result : Except QueryError Value)
  /-- The translations, where there are any. -/
  | translation (report : Option TranslationReport)
  /-- A sequence is open. -/
  | opened
  /-- A sequence is at its end. -/
  | atEnd
  /-- No sequence is open under the name. -/
  | closed

/-! ## Sessions -/

/-- An open sequence. -/
structure Opened where
  /-- The expression that was opened. -/
  origin : Expr
  /-- How far it is read. -/
  cursor : Cursor

/-- The state of a session. -/
structure Session where
  /-- The surroundings of every evaluation. -/
  context : Context
  /-- The state of the evaluation. -/
  state : State
  /-- The open sequences by name. -/
  held : List (String × Opened)

namespace Session

/-- What a command does: its reply, the session afterwards, and the events. -/
structure Result where
  /-- The answer. -/
  reply : Reply
  /-- The session afterwards. -/
  session : Session
  /-- The events of the command. -/
  trace : Trace

/-- Runs an evaluation in the session and answers with what `reply` makes of its result. -/
def run {α : Type} (session : Session) (eval : Eval α)
    (reply : Except QueryError α → Reply) : Result :=
  let o := eval.run session.state
  ⟨reply o.value, { session with state := o.state }, o.trace⟩

/-- The answer that a value gives. -/
def answer (result : Except QueryError Value) : Reply :=
  .outcome result

/-- The answer that a truth value gives. -/
def truth (result : Except QueryError Bool) : Reply :=
  .outcome (result.map Value.boolean)

/-- The answer that a list of values gives. -/
def values (result : Except QueryError (List Value)) : Reply :=
  .outcome (result.map Value.list)

/-- Opens a sequence and holds it; one that cannot be opened leaves those that are held alone. -/
def hold (session : Session) (handle : String) (origin : Expr) (start : Eval Cursor) : Result :=
  let o := start.run session.state
  let session := { session with state := o.state }
  match o.value with
  | .ok cursor =>
    ⟨.opened, { session with held := Named.put handle ⟨origin, cursor⟩ session.held }, o.trace⟩
  | .error e => ⟨.outcome (.error e), session, o.trace⟩

/-- Pulls one item from an open sequence. -/
def pull (session : Session) (handle : String) (sequence : Opened) : Result :=
  let o := (sequence.origin.source session.context).advance sequence.cursor session.state
  let session := { session with
    state := o.state
    held := Named.put handle { sequence with cursor := o.value.2 } session.held }
  match o.value.1 with
  | some item => ⟨.outcome item, session, o.trace⟩
  | none => ⟨.atEnd, session, o.trace⟩

/-- Executes a command. -/
def step (session : Session) : Command → Result
  | .push name value =>
    ⟨.done, { session with
      state := { session.state with bindings := (name, value) :: session.state.bindings } }, []⟩
  | .pop =>
    match session.state.bindings with
    | [] => ⟨.flag false, session, []⟩
    | _ :: bindings => ⟨.flag true, { session with state := { session.state with bindings } }, []⟩
  | .resolve name => session.run (Eval.resolve name) answer
  | .parameter ref => session.run (Eval.parameter session.context ref) answer
  | .isBound name =>
    ⟨.flag (Named.lookup name session.state.bindings).isSome, session, []⟩
  | .evaluate e => session.run (e.value session.context) answer
  | .predicate e => session.run (e.isTrue session.context) truth
  | .apply lambda argument => session.run ((lambda.meaning session.context).apply argument) answer
  | .test lambda argument => session.run ((lambda.meaning session.context).test argument) truth
  | .translate key =>
    match session.context.translations with
    | none => ⟨.translation none, session, []⟩
    | some translations =>
      let o := (Eval.translate translations key).run session.state
      ⟨.translation (some ⟨translations.locale, translations.fallback, translations.text? key⟩),
        { session with state := o.state }, o.trace⟩
  | .openSource handle e => session.hold handle e (e.source session.context).start
  | .take handle => session.hold handle .everything Cursor.takeEverything
  | .next handle =>
    match Named.lookup handle session.held with
    | some sequence => session.pull handle sequence
    | none => ⟨.closed, session, []⟩
  | .collect handle =>
    match Named.lookup handle session.held with
    | some sequence =>
      { session with held := Named.remove handle session.held }.run
        ((sequence.origin.source session.context).drain sequence.cursor) values
    | none => ⟨.closed, session, []⟩
  | .isMatch (.matching name) candidate =>
    let verdict := (session.context.queries.matching name).test candidate
    ⟨truth verdict.result, session, verdict.trace⟩
  | .perform (.matching name) input =>
    let reading := (session.context.queries.matching name).perform (.ofItems input)
    ⟨values reading.result, session, reading.trace⟩
  | .perform (.sequence name) input =>
    let call := Operator.querySource session.context (pure (.query (.sequence name))) none
    let o := call.collect.run ⟨[], .available (.ofItems input)⟩
    ⟨values o.value, session, o.trace⟩
  | .pre (.matching name) => ⟨.done, session, (session.context.queries.matching name).setup⟩
  | .post (.matching name) => ⟨.done, session, (session.context.queries.matching name).teardown⟩
  | .isMatch (.sequence _) _ | .pre (.sequence _) | .post (.sequence _) => ⟨.done, session, []⟩

/-! ## Setting a session up -/

/-- A session without parameters, in which the working set is what the items make up. -/
def start (queries : Registry) (translations : Option Translations) (everything : Option (List Item))
    (parameters : Parameters) : Session where
  context := ⟨parameters, translations, queries⟩
  state := ⟨[], match everything with
    | some items => .available (.ofItems items)
    | none => .unset⟩
  held := []

/-- Gives the session parameters, if they suffice for the body; else it keeps those that it has. -/
def bind (session : Session) (parameters : Parameters) (body : Expr) :
    Except QueryError Unit × Session :=
  match parameters.check body with
  | .ok () => (.ok (), { session with context := { session.context with parameters } })
  | .error e => (.error e, session)

/-! ## Running a session -/

/-- What an observer sees after a command. -/
structure Entry where
  /-- The answer. -/
  reply : Reply
  /-- The number of items pulled from sources so far. -/
  pulled : Nat
  /-- The number of live bindings. -/
  depth : Nat
  /-- The journal of the command. -/
  log : List String

/-- Executes commands in order, after some pulls. -/
def runFrom (pulled : Nat) (session : Session) : List Command → List Entry
  | [] => []
  | command :: rest =>
    let result := session.step command
    let pulled := pulled + result.trace.pulls
    ⟨result.reply, pulled, result.session.state.depth, result.trace.journal⟩ ::
      runFrom pulled result.session rest

/-- Executes commands in order. -/
def runAll (session : Session) (commands : List Command) : List Entry :=
  runFrom 0 session commands

end Session

end RecordQuery
