import RecordQuery.Driver.Collection
import RecordQuery.Driver.Match

/-!
# Drivers from query text

The text of a query is turned into an expression by a compiler outside the language, which may fail.
A driver made from text has its parameters checked at once.
-/

namespace RecordQuery

/-- Why a query text cannot be compiled. -/
structure CompileError where
  /-- The text. -/
  query : String
  /-- What is wrong with it. -/
  reason : String
deriving DecidableEq, Repr

/-- The wording of a compile error. -/
def CompileError.message (error : CompileError) : String :=
  "Failed to compile '" ++ error.query ++ "': " ++ error.reason

/-- What turns query texts into expressions. -/
abbrev Compiler := String → Except CompileError Expr

/-- The compiler that knows the texts of a list and no others. -/
def Compiler.ofList (entries : List (String × Expr)) : Compiler := fun query =>
  match Named.lookup query entries with
  | some body => .ok body
  | none => .error ⟨query, "unsupported query"⟩

/-- Why a driver cannot be made. -/
inductive DriverError where
  /-- Its text cannot be compiled. -/
  | compile (error : CompileError)
  /-- Its parameters do not suffice. -/
  | query (error : QueryError)
deriving DecidableEq, Repr

/-- The body of a query text, once the parameters are found to suffice. -/
def Compiler.prepare (compiler : Compiler) (query : String) (parameters : Parameters) :
    Except DriverError Expr := do
  let body ← (compiler query).mapError .compile
  (parameters.check body).mapError .query
  return body

end RecordQuery
