import RecordQuery.Expr.Basic

/-!
# Errors of evaluation

Why a query fails. An error names its cause; its wording is `QueryError.message`, and the four
kinds that callers tell apart are `QueryError.kind`.
-/

namespace RecordQuery

/-- What is wrong with an operand, or with what it evaluates to. -/
inductive Fault where
  /-- The number of operands is not one that the operator takes. -/
  | arity (expected : Arity) (count : Nat)
  /-- Values of these types do not compare. -/
  | incomparable (left right : String)
  /-- The name of a property is a value of this type and not a string. -/
  | propertyName (typeName : String)
  /-- A value of this type has no properties. -/
  | noProperties (property typeName : String)
  /-- A text that should be a range of versions is none. -/
  | range (error : VersionError)
  /-- A lambda is wanted. -/
  | lambdaExpected
  /-- A filter that cannot do without a lambda has none. -/
  | lambdaMissing
  /-- A limit is not a natural number but the value shown. -/
  | limit (shown : String)
  /-- The working set was taken before. -/
  | consumed
  /-- What a source of items or a query object reports in words of its own. -/
  | reported (message : String)
deriving DecidableEq, Repr

/-- The wording of a fault. -/
def Fault.message : Fault → String
  | .arity expected count => "expected " ++ expected.text ++ " operands, got " ++ count.repr
  | .incomparable left right => "cannot compare " ++ left ++ " with " ++ right
  | .propertyName typeName => "property name must be a string, got " ++ typeName
  | .noProperties property typeName => "cannot read property '" ++ property ++ "' of " ++ typeName
  | .range error => error.message
  | .lambdaExpected => "expected a lambda"
  | .lambdaMissing => "filter requires a lambda"
  | .limit shown => "limit must be a non-negative integer, got " ++ shown
  | .consumed => "working set is single-pass and was already consumed"
  | .reported message => message

/-- Why a query fails. -/
inductive QueryError where
  /-- A query refers to a parameter that is not among those supplied. -/
  | parameterMissing (ref : ParameterRef) (supplied : Nat)
  /-- A parameter has no value where it is evaluated. -/
  | parameterUnbound (ref : ParameterRef)
  /-- A variable has no binding. -/
  | variableUnbound (name : String)
  /-- A value of this type is called like a query object. -/
  | notAQuery (typeName : String)
  /-- An operator fails on one of its operands. -/
  | evaluation (operator : String) (operand : Nat) (fault : Fault)
deriving DecidableEq, Repr

/-- The kinds of error that callers tell apart. -/
inductive ErrorKind where
  /-- The query and its parameters do not fit together. -/
  | configuration
  /-- A variable has no binding. -/
  | unboundVariable
  /-- A value is of the wrong type for what is done with it. -/
  | typeMismatch
  /-- An operator fails. -/
  | evaluation
deriving DecidableEq, Repr

namespace QueryError

/-- The kind of an error. -/
def kind : QueryError → ErrorKind
  | .parameterMissing .. | .parameterUnbound _ => .configuration
  | .variableUnbound _ => .unboundVariable
  | .notAQuery _ => .typeMismatch
  | .evaluation .. => .evaluation

/-- The name of the operator that failed, if one did. -/
def operator? : QueryError → Option String
  | .evaluation operator .. => some operator
  | _ => none

/-- The wording of an error. -/
def message : QueryError → String
  | .parameterMissing ref supplied =>
    "Configuration error: query references parameter " ++ ref.text ++ " but only " ++
      supplied.repr ++ " were supplied"
  | .parameterUnbound ref => "Configuration error: parameter " ++ ref.text ++ " is not bound"
  | .variableUnbound name => "Variable '" ++ name ++ "' is not bound"
  | .notAQuery typeName =>
    "Type mismatch: first argument of '" ++ Operator.query.name ++
      "' must be a recognized query object, got " ++ typeName
  | .evaluation operator operand fault =>
    "Operator '" ++ operator ++ "' failed on operand " ++ operand.repr ++ ": " ++ fault.message

end QueryError

namespace Operator

/-- The failure of an operator on an operand. -/
def fault (op : Operator) (operand : Nat) (fault : Fault) : QueryError :=
  .evaluation op.name operand fault

/-- The error of an operator applied to a number of operands that it does not take. -/
def arityError (op : Operator) (count : Nat) : QueryError :=
  op.fault (op.arity.blamed count) (.arity op.arity count)

end Operator

end RecordQuery
