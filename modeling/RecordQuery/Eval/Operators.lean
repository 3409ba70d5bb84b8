import RecordQuery.Eval.Filters
import RecordQuery.Text.Glob
import RecordQuery.Value.Text

/-!
# Operators

What each operator makes of the meanings of its operands. Operands are evaluated from left to right
and only as far as the result needs them; an operator with a wrong number of operands fails before
any is evaluated.
-/

namespace RecordQuery

/-- What an expression means: as a value and as a sequence. A lambda and a selection also mean
something to the node above them. -/
structure Meaning where
  /-- The value. -/
  value : Eval Value
  /-- The items. -/
  source : Source
  /-- The lambda, where the expression is one. -/
  lambda? : Option Binder
  /-- The source and the lambda, where the expression is a selection. -/
  selection? : Option (Source × Binder)

namespace Meaning

/-- An expression whose natural result is one value. -/
def ofValue (value : Eval Value) : Meaning :=
  ⟨value, .ofValue value, none, none⟩

/-- An expression whose natural result is a sequence. -/
def ofSource (source : Source) : Meaning :=
  ⟨.list <$> source.collect, source, none, none⟩

end Meaning

namespace Operator

/-! ## Comparison -/

/-- The truth of an ordering operator. -/
def holds : Operator → Ordering → Bool
  | .less, ordering => ordering.isLT
  | .lessOrEqual, ordering => ordering.isLE
  | .greater, ordering => ordering.isGT
  | _, ordering => ordering.isGE

/-- Applies an ordering operator to two values, which have to compare. -/
def order (op : Operator) (left right : Value) : Except QueryError Value :=
  match left.compare? right with
  | some ordering => .ok (.boolean (op.holds ordering))
  | none => .error (op.fault 1 (.incomparable left.typeName right.typeName))

/-! ## Matching -/

/-- Whether a value fits a range, a pattern or a kind. A version fits a range, also one in a text; a
text or an identifier fits a star pattern; a record fits its kind; other values fit their equals. -/
def fit : Value → Value → Except QueryError Bool
  | .version v, .range r => .ok (r.contains v)
  | .version v, .string text =>
    match VersionRange.parse text with
    | .ok range => .ok (range.contains v)
    | .error e => .error (Operator.fits.fault 1 (.range e))
  | .string text, .string pattern => .ok (Text.globMatches pattern.toList text.toList)
  | .id item, .string pattern => .ok (Text.globMatches pattern.toList item.text.toList)
  | .record kind _, .string name => .ok (kind = name)
  | left, right => .ok (left.matchesValue right)

/-! ## Connectives -/

/-- Whether all operands are true, evaluated until one is not. -/
def conjunction : List Meaning → Eval Bool
  | [] => pure true
  | operand :: rest => do
    if (← operand.value).isTrue then conjunction rest else return false

/-- Whether some operand is true, evaluated until one is. -/
def disjunction : List Meaning → Eval Bool
  | [] => pure false
  | operand :: rest => do
    if (← operand.value).isTrue then return true else disjunction rest

/-! ## Properties -/

/-- The property of a value. The absent value has every property, each absent, and so has a record
that does not name it. -/
def property (op : Operator) (target : Value) (name : String) : Except QueryError Value :=
  match target with
  | .record _ properties => .ok ((Named.lookup name properties).getD .null)
  | .null => .ok .null
  | other => .error (op.fault 0 (.noProperties name other.typeName))

/-- Evaluates a target and the name of one of its properties, and reads it. -/
def readProperty (op : Operator) (target name : Meaning) : Eval Value := do
  let target ← target.value
  match ← name.value with
  | .string name => liftExcept (op.property target name)
  | other => throw (op.fault 1 (.propertyName other.typeName))
where
  /-- A result as a step of evaluation. -/
  liftExcept (result : Except QueryError Value) : Eval Value := Eval.report [] result

/-- The translation key that a text stands for: what follows a percent sign at its head. -/
def translationKey? (raw : Value) : Option String :=
  match raw.text?.map String.toList with
  | some ('%' :: key) => some (String.ofList key)
  | _ => none

/-- What a raw property is in the language of the caller. A text that is no key stands for itself,
and so does every text where there are no translations. -/
def localize (ctx : Context) (raw : Value) : Eval Value :=
  match translationKey? raw, ctx.translations with
  | some key, some translations => do
    match ← Eval.translate translations key with
    | some text => return .string text
    | none => return if translations.fallback then raw else .null
  | _, _ => pure raw

/-! ## Quantifiers -/

/-- The lambda that an operand has to be. -/
def lambdaOperand (op : Operator) (operand : Meaning) : Eval Binder :=
  match operand.lambda? with
  | some binder => pure binder
  | none => throw (op.fault 1 .lambdaExpected)

/-- Whether some item passes; the first that does decides. -/
def someItem (source : Source) (binder : Binder) : Eval Value :=
  source.read (fun gathered value => do
    return if ← binder.test value then .done (.boolean true) else .more gathered)
    (fun _ => .boolean false) ()

/-- Whether every item passes; the first that does not decides. -/
def everyItem (source : Source) (binder : Binder) : Eval Value :=
  source.read (fun gathered value => do
    return if ← binder.test value then .more gathered else .done (.boolean false))
    (fun _ => .boolean true) ()

/-- The first item that passes, or the absent value. -/
def firstItem (source : Source) (binder : Binder) : Eval Value :=
  source.read (fun gathered value => do
    return if ← binder.test value then .done value else .more gathered)
    (fun _ => .null) ()

/-! ## Counting -/

/-- The number of items. -/
def countItems (source : Source) : Eval Value :=
  source.read (fun count _ => pure (.more (count + 1))) Value.integer (0 : Int64)

/-- The number that a limit is. -/
def limitCount (count : Eval Value) : Eval Nat := do
  match ← count with
  | .integer n =>
    if 0 ≤ n.toInt then return n.toInt.toNat
    else throw (Operator.limit.fault 1 (.limit (Value.integer n).text))
  | other => throw (Operator.limit.fault 1 (.limit other.text))

end Operator

end RecordQuery
