import RecordQuery.Expr.Operator
import RecordQuery.Value.Basic

/-!
# Expressions

The trees that queries are made of. A tree is immutable and holds no state, so that one tree can be
evaluated any number of times.

A filter comes in two forms, without a lambda (`filter`) and with one (`filterBy`); a lambda may
also stand alone. Two variables are built in: `this` is the candidate at hand, and `everything`
names the working set.
-/

namespace RecordQuery

/-- A reference to a parameter, by position or by name. -/
inductive ParameterRef where
  /-- The parameter at a position, counted from zero. -/
  | index (position : Nat)
  /-- The parameter of a name. -/
  | named (name : String)
deriving DecidableEq, Repr, Inhabited

/-- How a reference is written. -/
def ParameterRef.text : ParameterRef → String
  | .index position => "$" ++ position.repr
  | .named name => "$" ++ name

/-- An expression. -/
inductive Expr where
  /-- A value. -/
  | literal (value : Value)
  /-- A variable. -/
  | var (name : String)
  /-- A parameter. -/
  | parameter (ref : ParameterRef)
  /-- A lambda that stands alone: it is applied to the candidate at hand. -/
  | lambda (binder : String) (body : Expr)
  /-- An operator applied to operands, of any number. -/
  | call (op : Operator) (operands : List Expr)
  /-- A filter without a lambda. -/
  | filter (kind : FilterKind) (source : Expr)
  /-- A filter with a lambda. -/
  | filterBy (kind : FilterKind) (source : Expr) (binder : String) (body : Expr)
deriving Repr, Inhabited

/-- A body with one bound variable. -/
structure Lambda where
  /-- The variable. -/
  name : String
  /-- The body. -/
  body : Expr
deriving Repr, Inhabited

namespace Expr

/-! ## Building expressions -/

/-- The name of the variable bound to the candidate at hand. -/
def thisName : String := "this"

/-- The name of the variable that stands for the working set. -/
def everythingName : String := "everything"

/-- The candidate at hand. -/
def this : Expr := .var thisName

/-- The working set. -/
def everything : Expr := .var everythingName

/-- A property of a record. -/
def member (target : Expr) (property : String) : Expr :=
  .call .member [target, .literal (.string property)]

/-- A property of a record in the language of the caller. -/
def translated (target : Expr) (property : String) : Expr :=
  .call .translated [target, .literal (.string property)]

/-- Whether a value matches a pattern. -/
def fits (target pattern : Expr) : Expr :=
  .call .fits [target, pattern]

/-- Whether both expressions are true. -/
def and (left right : Expr) : Expr :=
  .call .and [left, right]

/-- Whether an expression is not true. -/
def not (operand : Expr) : Expr :=
  .call .not [operand]

/-- A filter with the lambda it is given, if it is given one. -/
def filtered (source : Expr) (kind : FilterKind) : Option Lambda → Expr
  | none => .filter kind source
  | some ⟨binder, body⟩ => .filterBy kind source binder body

/-- The items that pass a lambda. -/
def select (source : Expr) (condition : Lambda) : Expr :=
  source.filtered .select (some condition)

/-- The greatest version of each identifier. -/
def latest (source : Expr) : Expr :=
  source.filtered .latest none

/-- A call of a query object, on a target if it is given one. -/
def query (object : Expr) (target : Option Expr) : Expr :=
  .call .query (object :: target.toList)

/-- The conjunction of conditions from left to right, if there are any. -/
def conjunction : List Expr → Option Expr
  | [] => none
  | condition :: rest => some (rest.foldl and condition)

end Expr

end RecordQuery
