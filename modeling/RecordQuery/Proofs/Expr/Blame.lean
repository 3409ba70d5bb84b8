import RecordQuery.Proofs.Expr.Nodes

/-!
# The errors that a tree can be blamed for

`Expr.Blames` lists the errors that an expression can end in by itself, read off the tree: what its
operators and filters may complain of, the parameters that have no value, and the variables that no
lambda around them binds. Errors that come with the items of a source, or that query objects bring
up, are not among them.

The scope holds the variables that are known to have a binding. A lambda adds its own for its body
only. A lambda that stands alone reads the candidate at hand, and so does a call without a target; a
lambda that a quantifier applies does not.

* `Expr.Blames.parameter_mem_walk`: a tree is to blame for an error of configuration only if one of
  its parameters has no value.
* `Expr.Blames.kind_ne_of_isScoped`: a tree that is well scoped is never to blame for an unbound
  variable.
-/

namespace RecordQuery.Expr

/-! ## Parts -/

/-- The parts of an expression that are evaluated with it, and the scope of each. Of the second
operand of a quantifier this is the body of a lambda. -/
inductive Part (scope : List String) : Expr → List String → Expr → Prop
  | lambda {binder : String} {body : Expr} :
    Part scope (.lambda binder body) (binder :: scope) body
  | operand {op : Operator} {operands : List Expr} {operand : Expr}
    (hop : op.isQuantifier = false) (hmem : operand ∈ operands) :
    Part scope (.call op operands) scope operand
  | quantified {op : Operator} {source lambda : Expr} (hop : op.isQuantifier = true) :
    Part scope (.call op [source, lambda]) scope source
  | quantifier {op : Operator} {source : Expr} {binder : String} {body : Expr}
    (hop : op.isQuantifier = true) :
    Part scope (.call op [source, .lambda binder body]) (binder :: scope) body
  | filter {kind : FilterKind} {source : Expr} : Part scope (.filter kind source) scope source
  | filterBySource {kind : FilterKind} {source : Expr} {binder : String} {body : Expr} :
    Part scope (.filterBy kind source binder body) scope source
  | filterByBody {kind : FilterKind} {source : Expr} {binder : String} {body : Expr} :
    Part scope (.filterBy kind source binder body) (binder :: scope) body

/-- What holds of all nodes of the whole holds of all nodes of a part. -/
theorem Part.forall_mem_walk {scope scope' : List String} {e part : Expr}
    (h : Part scope e scope' part) {p : Expr → Prop} (he : ∀ node ∈ e.walk, p node) :
    ∀ node ∈ part.walk, p node := by
  cases h with
  | lambda => exact (forall_mem_walk_lambda.mp he).2
  | operand _ hmem => exact (forall_mem_walk_call.mp he).2 _ hmem
  | quantified => exact (forall_mem_walk_call.mp he).2 _ List.mem_cons_self
  | quantifier =>
      have hlambda := (forall_mem_walk_call.mp he).2
      rw [List.forall_mem_cons, List.forall_mem_singleton] at hlambda
      exact (forall_mem_walk_lambda.mp hlambda.2).2
  | filter => exact (forall_mem_walk_filter.mp he).2
  | filterBySource => exact (forall_mem_walk_filterBy.mp he).2.1
  | filterByBody => exact (forall_mem_walk_filterBy.mp he).2.2

/-! ## Blame -/

/-- The errors that an expression can end in by itself, where the variables of a scope are known to
have bindings. -/
inductive Blames (params : Parameters) : List String → Expr → QueryError → Prop
  /-- A variable may have no binding. -/
  | unbound {scope : List String} {name : String} (hname : name ≠ everythingName)
    (hscope : name ∉ scope) : Blames params scope (.var name) (.variableUnbound name)
  /-- The working set may have been taken before. -/
  | workingSet {scope : List String} {node : Expr} (h : node.usesWorkingSet = true) :
    Blames params scope node (.evaluation everythingName 0 .consumed)
  /-- A parameter may have no value. -/
  | parameter {scope : List String} {ref : ParameterRef} (h : params.get? ref = none) :
    Blames params scope (.parameter ref) (.parameterUnbound ref)
  /-- There may be no candidate to apply a lambda to. -/
  | lambda {scope : List String} {binder : String} {body : Expr} (hscope : thisName ∉ scope) :
    Blames params scope (.lambda binder body) (.variableUnbound thisName)
  /-- There may be no candidate to test. -/
  | candidate {scope : List String} {object : Expr} (hscope : thisName ∉ scope) :
    Blames params scope (.call .query [object]) (.variableUnbound thisName)
  /-- What is called may be no query object. -/
  | object {scope : List String} {operands : List Expr} {typeName : String} :
    Blames params scope (.call .query operands) (.notAQuery typeName)
  /-- An operator may fail on an operand. -/
  | operator {scope : List String} {op : Operator} {operands : List Expr} {operand : Nat}
    {fault : Fault} : Blames params scope (.call op operands) (op.fault operand fault)
  /-- A filter may lack its lambda. -/
  | filter {scope : List String} {kind : FilterKind} {source : Expr} :
    Blames params scope (.filter kind source) (.evaluation kind.name 1 .lambdaMissing)
  /-- A part that is evaluated may fail. -/
  | part {scope scope' : List String} {e part : Expr} {error : QueryError}
    (hpart : Part scope e scope' part) (h : Blames params scope' part error) :
    Blames params scope e error

variable {params : Parameters} {scope : List String} {e : Expr} {error : QueryError}

/-- An error of configuration is blamed on a parameter of the tree that has no value. -/
theorem Blames.parameter_mem_walk (h : Blames params scope e error)
    (hkind : error.kind = .configuration) :
    ∃ ref, error = .parameterUnbound ref ∧ .parameter ref ∈ e.walk ∧ params.get? ref = none := by
  induction h with
  | parameter hnone => exact ⟨_, rfl, mem_walk_self _, hnone⟩
  | part hpart _ ih =>
      obtain ⟨ref, herror, hmem, hnone⟩ := ih hkind
      exact ⟨ref, herror, hpart.forall_mem_walk (fun _ h => h) _ hmem, hnone⟩
  | _ => cases hkind

/-! ## Scopes -/

mutual

/-- Whether a tree is well scoped, where the variables of a scope have bindings. If a quantifier
applies it, a lambda needs no candidate at hand. -/
def isScopedAs (applied : Bool) (scope : List String) : Expr → Bool
  | .literal _ | .parameter _ => true
  | .var name => name = everythingName || scope.contains name
  | .lambda binder body =>
    (applied || scope.contains thisName) && isScopedAs false (binder :: scope) body
  | .call op operands =>
    (!(op = .query && operands.length = 1) || scope.contains thisName) &&
      areScopedFrom op 0 scope operands
  | .filter _ source => isScopedAs false scope source
  | .filterBy _ source binder body =>
    isScopedAs false scope source && isScopedAs false (binder :: scope) body

/-- Whether the operands of an operator, from a position on, are well scoped. -/
def areScopedFrom (op : Operator) (position : Nat) (scope : List String) : List Expr → Bool
  | [] => true
  | e :: rest =>
    isScopedAs (op.isQuantifier && position = 1) scope e &&
      areScopedFrom op (position + 1) scope rest

end

/-- Whether a tree is *well scoped* where the variables of a scope have bindings: every variable
but `everything` is in the scope or bound by a lambda around it, and `this` is wherever a lambda
stands that no quantifier applies, and wherever a query object is called without a target. -/
def isScoped (scope : List String) (e : Expr) : Bool :=
  isScopedAs false scope e

/-- The operands of a call that is no quantifier are all read in the scope of the call. -/
theorem areScopedFrom_of_not_isQuantifier {op : Operator} (hop : op.isQuantifier = false)
    {position : Nat} {operands : List Expr} (h : areScopedFrom op position scope operands = true) :
    ∀ operand ∈ operands, operand.isScoped scope = true := by
  induction operands generalizing position with
  | nil => exact List.forall_mem_nil _
  | cons operand rest ih =>
      rw [areScopedFrom, hop, Bool.false_and, Bool.and_eq_true] at h
      exact List.forall_mem_cons.mpr ⟨h.1, ih h.2⟩

/-- The parts of a tree that is well scoped are so, each in its own scope. -/
theorem Part.isScoped {scope' : List String} {part : Expr} (h : Part scope e scope' part)
    (he : e.isScoped scope = true) : part.isScoped scope' = true := by
  unfold Expr.isScoped at he
  cases h with
  | operand hop hmem =>
      rw [isScopedAs, Bool.and_eq_true] at he
      exact areScopedFrom_of_not_isQuantifier hop he.2 _ hmem
  | quantified hop =>
      simp only [isScopedAs, areScopedFrom, hop, Bool.and_eq_true] at he
      exact he.2.1
  | quantifier hop =>
      simp only [isScopedAs, areScopedFrom, hop, Bool.and_eq_true] at he
      exact he.2.2.1.2
  | filter =>
      rw [isScopedAs] at he
      exact he
  | _ =>
      rw [isScopedAs, Bool.and_eq_true] at he
      first | exact he.1 | exact he.2

/-- **A tree that is well scoped is never to blame for an unbound variable.** -/
theorem Blames.kind_ne_of_isScoped (h : Blames params scope e error)
    (he : e.isScoped scope = true) : error.kind ≠ .unboundVariable := by
  induction h with
  | unbound hname hscope =>
      simp [Expr.isScoped, isScopedAs, hname, hscope] at he
  | lambda hscope => simp [Expr.isScoped, isScopedAs, hscope] at he
  | candidate hscope => simp [Expr.isScoped, isScopedAs, hscope] at he
  | part hpart _ ih => exact ih (hpart.isScoped he)
  | _ => rintro ⟨⟩

end RecordQuery.Expr
