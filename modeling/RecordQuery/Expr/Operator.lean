/-!
# Operators and filters

The operators of the query language, the names they are written by, and how many operands each
takes. Filters are the operators that turn a sequence into a sequence one item at a time, and
`latest`, which groups one.
-/

namespace RecordQuery

/-! ## Filters -/

/-- A filter on a sequence. -/
inductive FilterKind where
  /-- Keeps the items that pass the lambda. -/
  | select
  /-- Drops the items that pass the lambda. -/
  | reject
  /-- Puts the result of the lambda in the place of each item. -/
  | collect
  /-- Keeps the greatest version of each identifier. -/
  | latest
  /-- Drops the items that occurred before. -/
  | unique
deriving DecidableEq, Repr, Inhabited

namespace FilterKind

/-- Every filter. -/
def all : List FilterKind := [.select, .reject, .collect, .latest, .unique]

/-- The name of a filter. -/
def name : FilterKind → String
  | .select => "select"
  | .reject => "reject"
  | .collect => "collect"
  | .latest => "latest"
  | .unique => "unique"

/-- The filter of a name. -/
def ofName? (name : String) : Option FilterKind :=
  all.find? fun kind => kind.name = name

end FilterKind

/-! ## Operators -/

/-- An operator. -/
inductive Operator where
  /-- Equality. -/
  | equals
  /-- The negation of equality. -/
  | notEquals
  /-- Strictly before in the order of values. -/
  | less
  /-- Before or equal in the order of values. -/
  | lessOrEqual
  /-- Strictly after in the order of values. -/
  | greater
  /-- After or equal in the order of values. -/
  | greaterOrEqual
  /-- Whether every operand is true. -/
  | and
  /-- Whether some operand is true. -/
  | or
  /-- Whether the operand is not true. -/
  | not
  /-- A property of a record. -/
  | member
  /-- Whether a value matches a range, a pattern or a kind. -/
  | fits
  /-- A property of a record in the language of the caller. -/
  | translated
  /-- Whether some item passes a lambda. -/
  | exists
  /-- Whether every item passes a lambda. -/
  | all
  /-- The first item that passes a lambda. -/
  | first
  /-- The number of items. -/
  | count
  /-- The first so many items. -/
  | limit
  /-- A call of a query object. -/
  | query
deriving DecidableEq, Repr, Inhabited

/-- The numbers of operands that an operator takes: at least `min`, at most `max` if there is one. -/
structure Arity where
  /-- The least number. -/
  min : Nat
  /-- The greatest number; an operator without one takes any number from the least on. -/
  max : Option Nat
deriving DecidableEq, Repr

namespace Operator

/-- Every operator, in a fixed order. -/
def catalogue : List Operator :=
  [.equals, .notEquals, .less, .lessOrEqual, .greater, .greaterOrEqual, .and, .or, .not, .member,
   .fits, .translated, .exists, .all, .first, .count, .limit, .query]

/-- The name of an operator. -/
def name : Operator → String
  | .equals => "=="
  | .notEquals => "!="
  | .less => "<"
  | .lessOrEqual => "<="
  | .greater => ">"
  | .greaterOrEqual => ">="
  | .and => "&&"
  | .or => "||"
  | .not => "!"
  | .member => "member"
  | .fits => "~="
  | .translated => "translated"
  | .exists => "exists"
  | .all => "all"
  | .first => "first"
  | .count => "count"
  | .limit => "limit"
  | .query => "query"

/-- The operator of a name. -/
def ofName? (name : String) : Option Operator :=
  catalogue.find? fun op => op.name = name

/-- The place of an operator in the catalogue. -/
def index (op : Operator) : Nat :=
  catalogue.idxOf op

/-- How many operands an operator takes. -/
def arity : Operator → Arity
  | .not | .count => ⟨1, some 1⟩
  | .and | .or => ⟨2, none⟩
  | .query => ⟨1, some 2⟩
  | _ => ⟨2, some 2⟩

/-- Whether the natural result of an operator is a sequence. -/
def isSequenceValued : Operator → Bool
  | .limit | .query => true
  | _ => false

/-- Whether an operator is written between its operands. -/
def isInfix : Operator → Bool
  | .equals | .notEquals | .less | .lessOrEqual | .greater | .greaterOrEqual
  | .and | .or | .fits => true
  | _ => false

/-- Every operator is in the catalogue. -/
theorem mem_catalogue (op : Operator) : op ∈ catalogue := by
  cases op <;> decide

/-- An operator is found by its name. -/
theorem ofName?_name (op : Operator) : ofName? op.name = some op := by
  cases op <;> rfl

end Operator

namespace Arity

/-- Whether a number of operands is allowed. -/
def allows (arity : Arity) (count : Nat) : Bool :=
  arity.min ≤ count && arity.max.all (count ≤ ·)

/-- The allowed numbers in words. -/
def text (arity : Arity) : String :=
  match arity.max with
  | none => "at least " ++ arity.min.repr
  | some max => if max = arity.min then arity.min.repr else arity.min.repr ++ " to " ++ max.repr

/-- The operand that a wrong number of operands is blamed on: the first surplus one, else the first
missing one. -/
def blamed (arity : Arity) (count : Nat) : Nat :=
  match arity.max with
  | some max => if max < count then max else count
  | none => count

end Arity

end RecordQuery
