import RecordQuery.Expr.Walk
import RecordQuery.Query.Error

/-!
# Parameters

The values that a query is called with, by position and by name. They are checked against a query
before it runs: `Parameters.check` fails on the first parameter, in the order of the nodes of the
query, that is not supplied.
-/

namespace RecordQuery

/-- Values for the parameters of a query. -/
structure Parameters where
  /-- The values by position. -/
  positional : List Value
  /-- The values by name. -/
  named : List (String × Value)
deriving Inhabited

namespace Parameters

/-- No values. -/
def none : Parameters := ⟨[], []⟩

/-- Adds a value at the next position. -/
def add (params : Parameters) (value : Value) : Parameters :=
  { params with positional := params.positional ++ [value] }

/-- Gives a name a value, in place of the one it has. -/
def addNamed (params : Parameters) (name : String) (value : Value) : Parameters :=
  { params with named := Named.put name value params.named }

/-- Adds values by position, then values by name, each in order. -/
def ofLists (positional : List Value) (named : List (String × Value)) : Parameters :=
  named.foldl (fun params entry => params.addNamed entry.1 entry.2) ⟨positional, []⟩

/-- The value of a parameter. -/
def get? (params : Parameters) : ParameterRef → Option Value
  | .index position => params.positional[position]?
  | .named name => Named.lookup name params.named

/-- How many values there are. -/
def size (params : Parameters) : Nat :=
  params.positional.length + (Named.names params.named).length

/-- Whether there are no values. -/
def isEmpty (params : Parameters) : Bool :=
  params.size = 0

/-- The error that names the first parameter of the body that has no value. -/
def check (params : Parameters) (body : Expr) : Except QueryError Unit :=
  match body.parameterRefs.find? fun ref => (params.get? ref).isNone with
  | some missing => .error (.parameterMissing missing params.size)
  | .none => .ok ()

/-- Parameters are equal when they give every position and every name equal values. -/
instance : BEq Parameters where
  beq a b :=
    Value.sameItems a.positional b.positional &&
      ((Named.names a.named).length = (Named.names b.named).length &&
        Value.sameProperties [] a.named b.named)

end Parameters

end RecordQuery
