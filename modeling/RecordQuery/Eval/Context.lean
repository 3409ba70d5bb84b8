import RecordQuery.Eval.State
import RecordQuery.Locale.Translations
import RecordQuery.Parameters
import RecordQuery.Query.Object

/-!
# The context of an evaluation

What an evaluation can see and not change: the parameters, the translations of the caller and the
query objects. Beside it stand the steps of evaluation that touch the state: reading and binding
variables, taking the working set and pulling on it, and looking a translation up.
-/

namespace RecordQuery

/-- The fixed surroundings of an evaluation. -/
structure Context where
  /-- The values of parameters. -/
  parameters : Parameters
  /-- The translations for the caller, where there are any. -/
  translations : Option Translations
  /-- The query objects. -/
  queries : Registry

namespace Eval

/-! ## Variables -/

/-- The value of the innermost binding of a variable. -/
def resolve (name : String) : Eval Value := do
  match Named.lookup name (← ofAction Action.state).bindings with
  | some value => return value
  | none => throw (.variableUnbound name)

/-- Whether a variable has a binding. -/
def isBound (name : String) : Eval Bool := do
  return (Named.lookup name (← ofAction Action.state).bindings).isSome

/-- Runs with one more binding, which is released at the end, whatever the result. -/
def withBinding {α : Type} (name : String) (value : Value) (body : Eval α) : Eval α :=
  ExceptT.mk fun state =>
    let o := body.run { state with bindings := (name, value) :: state.bindings }
    { o with state := { o.state with bindings := o.state.bindings.tail } }

/-! ## Parameters -/

/-- The value of a parameter. -/
def parameter (ctx : Context) (ref : ParameterRef) : Eval Value :=
  match ctx.parameters.get? ref with
  | some value => pure value
  | none => throw (.parameterUnbound ref)

/-! ## Translations -/

/-- The text for a translation key in the language of the caller. Every locale that is tried leaves
an event. -/
def translate (translations : Translations) (key : String) : Eval (Option String) :=
  report ((translations.lookups key).map (Event.lookup · key)) (.ok (translations.text? key))

end Eval

namespace Action

/-! ## The working set -/

/-- Pulls on what is left of a working set that was taken. -/
def pull : Action (Option Item) := fun state =>
  match state.workingSet with
  | .taken (.step trace item rest) => ⟨some item, { state with workingSet := .taken rest }, trace⟩
  | .taken (.closing trace) => ⟨none, { state with workingSet := .taken .spent }, trace⟩
  | _ => ⟨none, state, []⟩

end Action

end RecordQuery
