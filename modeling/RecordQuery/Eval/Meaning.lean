import RecordQuery.Eval.Calls

/-!
# The meaning of expressions

`Expr.meaning` gives every expression its meaning in a context, from the meanings of its parts. An
expression can stand for one value (`Expr.value`) or for a sequence (`Expr.source`); where only one
of the two is natural, the other is derived from it.
-/

namespace RecordQuery

namespace Meaning

/-- A variable. `everything` is the working set unless a lambda has bound that name. -/
def ofVar (name : String) : Meaning :=
  if name = Expr.everythingName then
    { ofValue (Eval.resolve name) with
      value := do
        if ← Eval.isBound name then Eval.resolve name
        else return .list (← Source.everything.collect)
      source :=
        { start := do
            if ← Eval.isBound name then (Source.ofValue (Eval.resolve name)).start
            else Source.everything.start
          advance := Cursor.read } }
  else ofValue (Eval.resolve name)

/-- A lambda that stands alone, applied to the candidate at hand. -/
def ofLambda (binder : Binder) : Meaning :=
  { ofValue (do binder.apply (← Eval.resolve Expr.thisName)) with lambda? := some binder }

/-- An operator applied to operands. -/
def ofCall (ctx : Context) (op : Operator) (operands : List Meaning) : Meaning :=
  match op, operands with
  | .equals, [a, b] => ofValue do
    return .boolean ((← a.value).matchesValue (← b.value))
  | .notEquals, [a, b] => ofValue do
    return .boolean !((← a.value).matchesValue (← b.value))
  | .less, [a, b] => ordering .less a b
  | .lessOrEqual, [a, b] => ordering .lessOrEqual a b
  | .greater, [a, b] => ordering .greater a b
  | .greaterOrEqual, [a, b] => ordering .greaterOrEqual a b
  | .and, a :: b :: rest => ofValue (.boolean <$> Operator.conjunction (a :: b :: rest))
  | .or, a :: b :: rest => ofValue (.boolean <$> Operator.disjunction (a :: b :: rest))
  | .not, [a] => ofValue do return .boolean !(← a.value).isTrue
  | .member, [target, name] => ofValue (Operator.member.readProperty target name)
  | .fits, [a, b] => ofValue do
    let left ← a.value
    let right ← b.value
    Eval.report [] ((Operator.fit left right).map Value.boolean)
  | .translated, [target, name] => ofValue do
    Operator.localize ctx (← Operator.translated.readProperty target name)
  | .exists, [source, lambda] => ofValue do
    Operator.someItem source.source (← Operator.exists.lambdaOperand lambda)
  | .all, [source, lambda] => ofValue do
    Operator.everyItem source.source (← Operator.all.lambdaOperand lambda)
  | .first, [source, lambda] => ofValue do
    Operator.firstItem source.source (← Operator.first.lambdaOperand lambda)
  | .count, [source] => ofValue (Operator.countItems source.source)
  | .limit, [source, count] => ofSource (source.source.limited (Operator.limitCount count.value))
  | .query, [object] => query object none
  | .query, [object, target] => query object (some target)
  | op, operands => ofValue (throw (op.arityError operands.length))
where
  /-- An ordering operator applied to two operands. -/
  ordering (op : Operator) (a b : Meaning) : Meaning := ofValue do
    let left ← a.value
    let right ← b.value
    Eval.report [] (op.order left right)
  /-- A call of a query object. -/
  query (object : Meaning) (target : Option Meaning) : Meaning :=
    { ofSource (Operator.querySource ctx object.value target) with
      value := Operator.queryValue ctx object.value target }

/-- A filter without a lambda. -/
def ofFilter (kind : FilterKind) (source : Meaning) : Meaning :=
  match kind with
  | .latest => ofSource (latest source [])
  | .unique => ofSource source.source.unique
  | kind => ofSource (.ofValue (throw (.evaluation kind.name 1 .lambdaMissing)))
where
  /-- The greatest versions. The lambda of a selection is tried while its source is grouped. -/
  latest (source : Meaning) (binders : List Binder) : Source :=
    match source.selection? with
    | some (inner, binder) => .latest (binder :: binders) inner
    | none => .latest binders source.source

/-- A filter with a lambda, which `unique` does not use. -/
def ofFilterBy (kind : FilterKind) (source : Meaning) (binder : Binder) : Meaning :=
  match kind with
  | .select =>
    { ofSource (source.source.sifted true binder) with selection? := some (source.source, binder) }
  | .reject => ofSource (source.source.sifted false binder)
  | .collect => ofSource (source.source.mapped binder)
  | .latest => ofSource (ofFilter.latest source [binder])
  | .unique => ofSource source.source.unique

end Meaning

namespace Expr

mutual

/-- What an expression means in a context. -/
def meaning (ctx : Context) : Expr → Meaning
  | .literal value => .ofValue (pure value)
  | .var name => .ofVar name
  | .parameter ref => .ofValue (Eval.parameter ctx ref)
  | .lambda binder body => .ofLambda ⟨binder, (meaning ctx body).value⟩
  | .call op operands => .ofCall ctx op (meanings ctx operands)
  | .filter kind source => .ofFilter kind (meaning ctx source)
  | .filterBy kind source binder body =>
    .ofFilterBy kind (meaning ctx source) ⟨binder, (meaning ctx body).value⟩

/-- What several expressions mean. -/
def meanings (ctx : Context) : List Expr → List Meaning
  | [] => []
  | e :: rest => meaning ctx e :: meanings ctx rest

end

/-- The value of an expression. -/
def value (ctx : Context) (e : Expr) : Eval Value :=
  (e.meaning ctx).value

/-- The items of an expression. -/
def source (ctx : Context) (e : Expr) : Source :=
  (e.meaning ctx).source

/-- Whether an expression is true. -/
def isTrue (ctx : Context) (e : Expr) : Eval Bool :=
  Value.isTrue <$> e.value ctx

end Expr

namespace Lambda

/-- What a lambda means in a context. -/
def meaning (ctx : Context) (lambda : Lambda) : Binder :=
  ⟨lambda.name, lambda.body.value ctx⟩

end Lambda

end RecordQuery
