import RecordQuery.Expr.Basic
import RecordQuery.Value.Equality

/-!
# Nodes of an expression

`Expr.walk` lists a tree's nodes, parents first. From it come the parameters a tree refers to and
whether it can need a translation. `Expr.same` is equality of trees, with values compared as values.
-/

namespace RecordQuery.Expr

/-! ## Nodes -/

mutual

/-- The expression and all below it, parents first, from left to right. -/
def walk (e : Expr) : List Expr :=
  e ::
    match e with
    | .literal _ | .var _ | .parameter _ => []
    | .lambda _ body => walk body
    | .call _ operands => walkAll operands
    | .filter _ source => walk source
    | .filterBy _ source _ body => walk source ++ walk body

/-- The nodes of several expressions. -/
def walkAll : List Expr → List Expr
  | [] => []
  | e :: rest => walk e ++ walkAll rest

end

/-- The parameter that a node refers to. -/
def parameter? : Expr → Option ParameterRef
  | .parameter ref => some ref
  | _ => none

/-- The parameters that a tree refers to, in the order of its nodes. -/
def parameterRefs (e : Expr) : List ParameterRef :=
  e.walk.filterMap parameter?

/-- Whether a node looks a translation up. -/
def isTranslated : Expr → Bool
  | .call .translated _ => true
  | _ => false

/-- Whether evaluating the tree can look a translation up. -/
def needsTranslations (e : Expr) : Bool :=
  e.walk.any isTranslated

/-! ## Equality -/

mutual

/-- Whether two trees are equal. -/
def same : Expr → Expr → Bool
  | .literal a, .literal b => a == b
  | .var a, .var b => a = b
  | .parameter a, .parameter b => a = b
  | .lambda x a, .lambda y b => x = y && same a b
  | .call op as, .call op' bs => op = op' && sameAll as bs
  | .filter k a, .filter k' b => k = k' && same a b
  | .filterBy k a x p, .filterBy k' b y q => k = k' && same a b && x = y && same p q
  | _, _ => false

/-- Whether two lists of trees are equal. -/
def sameAll : List Expr → List Expr → Bool
  | [], [] => true
  | a :: as, b :: bs => same a b && sameAll as bs
  | _, _ => false

end

instance : BEq Expr := ⟨same⟩

end RecordQuery.Expr
