import RecordQuery.Expr.Basic
import RecordQuery.Value.Text

/-!
# Expressions as text

How an expression is shown. A property read by a literal name is written with a point, operators
between their operands stand in parentheses, and every other operator is written like a function.
-/

namespace RecordQuery.Expr

mutual

/-- How an expression is shown. -/
def text : Expr → String
  | .literal value => value.text
  | .var name => name
  | .parameter ref => ref.text
  | .lambda binder body => binder ++ " | " ++ text body
  | .call .member [target, .literal (.string property)] => text target ++ "." ++ property
  | .call .not [operand] => "!" ++ text operand
  | .call op [] => op.name ++ "()"
  | .call op (first :: rest) =>
    if op.isInfix then "(" ++ text first ++ textAll (" " ++ op.name ++ " ") rest ++ ")"
    else op.name ++ "(" ++ text first ++ textAll ", " rest ++ ")"
  | .filter kind source => text source ++ "." ++ kind.name ++ "()"
  | .filterBy kind source binder body =>
    text source ++ "." ++ kind.name ++ "(" ++ binder ++ " | " ++ text body ++ ")"

/-- How the operands after the first are shown, each after the separator. -/
def textAll (separator : String) : List Expr → String
  | [] => ""
  | e :: rest => separator ++ text e ++ textAll separator rest

end

end RecordQuery.Expr
