import RecordQuery.Eval.Source

/-!
# Filters

Sequences made from sequences. `select`, `reject`, `collect`, `unique` and `limit` stream: they pull
one item at a time and look no further than they have to. A failing item passes through, and the
sequence may go on behind it.

`latest` keeps, for each identifier, the item with the greatest version. It has to see the whole
source before it can give its first item, so it groups when it is opened.
-/

namespace RecordQuery

/-! ## Lambdas -/

/-- A lambda whose body is understood. -/
structure Binder where
  /-- The variable that the lambda binds. -/
  name : String
  /-- The value of its body. -/
  body : Eval Value

namespace Binder

/-- The value of the body for an argument. -/
def apply (binder : Binder) (argument : Value) : Eval Value :=
  Eval.withBinding binder.name argument binder.body

/-- Whether the argument passes: only `true` does. -/
def test (binder : Binder) (argument : Value) : Eval Bool :=
  Value.isTrue <$> binder.apply argument

/-- Whether the argument passes several lambdas, which are tried in order until one refuses. -/
def testAll : List Binder → Value → Eval Bool
  | [], _ => pure true
  | binder :: rest, argument => do
    if ← binder.test argument then testAll rest argument else return false

end Binder

namespace Source

/-! ## Streaming filters -/

/-- Applies to the values of a sequence and lets failures pass. -/
def onValues (accept : Value → Eval (Option Value)) : Item → Action (Option Item)
  | .error e => pure (some (.error e))
  | .ok value => do
    match ← (accept value).run with
    | .ok (some value) => return some (.ok value)
    | .ok none => return none
    | .error e => return some (.error e)

/-- The items of another sequence that `accept` makes an item of. -/
def mapping (accept : Item → Action (Option Item)) (source : Source) : Source where
  start := .derived <$> source.start
  advance
    | .derived inner => do
      let (item, inner) ← source.seek accept inner
      return (item, .derived inner)
    | cursor => pure (none, cursor)

/-- The values for which the lambda gives `keep`. -/
def sifted (keep : Bool) (binder : Binder) (source : Source) : Source :=
  source.mapping <| onValues fun value => do
    return if (← binder.test value) == keep then some value else none

/-- The results of the lambda. -/
def mapped (binder : Binder) (source : Source) : Source :=
  source.mapping <| onValues fun value => some <$> binder.apply value

/-- The values that did not occur before. -/
def unique (source : Source) : Source where
  start := .unseen .empty <$> source.start
  advance
    | .unseen seen inner => do
      let (item, inner) ← source.seek
        (onValues fun value => pure (if seen.contains value then none else some value)) inner
      match item with
      | some (.ok value) => return (item, .unseen (seen.insert value) inner)
      | _ => return (item, .unseen seen inner)
    | cursor => pure (none, cursor)

/-- The first so many items. The number is computed before the sequence is opened, and nothing is
pulled beyond it. -/
def limited (count : Eval Nat) (source : Source) : Source where
  start := do
    let count ← count
    return .atMost count (← source.start)
  advance
    | .atMost (left + 1) inner => do
      let (item, inner) ← source.advance inner
      return (item, .atMost left inner)
    | cursor => pure (none, cursor)

/-! ## Grouping -/

/-- Puts an item among the greatest versions so far: in the place of the item of its identifier,
unless that one is of a greater version, or behind all others. Values that are no versions of
anything are left out. -/
def place (item : Value) : List Value → List Value
  | [] => if item.versioned?.isSome then [item] else []
  | winner :: rest =>
    match item.versioned?, winner.versioned? with
    | some (id, version), some (id', version') =>
      if id = id' then (if (compare version version').isGE then item :: rest else winner :: rest)
      else winner :: place item rest
    | _, _ => winner :: place item rest

/-- The greatest versions among the values that pass the lambdas. -/
def grouped (binders : List Binder) (source : Source) : Eval (List Value) :=
  source.read (fun winners value => do
    return .more (if ← Binder.testAll binders value then place value winners else winners)) id []

/-- The greatest versions as a sequence. -/
def latest (binders : List Binder) (source : Source) : Source :=
  ofValue (.list <$> source.grouped binders)

end Source

end RecordQuery
