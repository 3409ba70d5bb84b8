import RecordQuery.Parameters

/-!
# What holds of all nodes of a tree

A condition on the nodes of a tree (`Expr.walk`) is a condition on its root and on the nodes of its
parts: one statement for each form of an expression. From the nodes are told the variables that a
tree reads, those that its lambdas bind, and whether it can read the working set of its context.

* `Expr.mem_parameterRefs`: the parameters of a tree are its parameter nodes.
* `Parameters.exists_missing_of_check_eq_error`: the check names the first of them, parents first,
  that has no value.
-/

namespace RecordQuery

/-- Whether an operator tests the items of a sequence with a lambda. -/
def Operator.isQuantifier : Operator → Bool
  | .exists | .all | .first => true
  | _ => false

namespace Expr

/-! ## Single nodes -/

/-- The variables that are built in. Evaluation can read them without their being named. -/
def IsBuiltIn (name : String) : Prop :=
  name = thisName ∨ name = everythingName

instance : DecidablePred IsBuiltIn := fun name =>
  inferInstanceAs (Decidable (name = thisName ∨ name = everythingName))

/-- The variable that a node reads. -/
def readName? : Expr → Option String
  | .var name => some name
  | _ => none

/-- The variable that a node binds. -/
def boundName? : Expr → Option String
  | .lambda binder _ | .filterBy _ _ binder _ => some binder
  | _ => none

/-- Whether a node can read the working set of its context: by its variable, or as a call that is
given no target. -/
def usesWorkingSet : Expr → Bool
  | .var name => name = everythingName
  | .call .query [_] => true
  | _ => false

/-! ## All nodes -/

/-- A name occurs nowhere in a tree, neither as a variable nor as a lambda's variable. -/
def Avoids (e : Expr) (name : String) : Prop :=
  ∀ node ∈ e.walk, node.readName? ≠ some name ∧ node.boundName? ≠ some name

/-- Whether a tree can read the working set of its context. -/
def mentionsWorkingSet (e : Expr) : Bool :=
  e.walk.any usesWorkingSet

/-- The nodes of several expressions are those of each, one after another. -/
theorem walkAll_eq_flatMap (es : List Expr) : walkAll es = es.flatMap walk := by
  induction es with
  | nil => rfl
  | cons e rest ih => rw [walkAll, ih, List.flatMap_cons]

variable {p : Expr → Prop}

/-- Every expression is a node of its own. -/
theorem mem_walk_self (e : Expr) : e ∈ e.walk := by
  rw [walk.eq_def]
  exact List.mem_cons_self

/-- The nodes of a lambda are the lambda and those of its body. -/
theorem forall_mem_walk_lambda {binder : String} {body : Expr} :
    (∀ node ∈ (lambda binder body).walk, p node) ↔
      p (lambda binder body) ∧ ∀ node ∈ body.walk, p node := by
  rw [walk, List.forall_mem_cons]

/-- The nodes of a call are the call and those of its operands. -/
theorem forall_mem_walk_call {op : Operator} {operands : List Expr} :
    (∀ node ∈ (call op operands).walk, p node) ↔
      p (call op operands) ∧ ∀ operand ∈ operands, ∀ node ∈ operand.walk, p node := by
  rw [walk, List.forall_mem_cons, walkAll_eq_flatMap]
  simp only [List.mem_flatMap]
  refine and_congr_right fun _ => ⟨fun h operand ho node hn => h node ⟨operand, ho, hn⟩, ?_⟩
  rintro h node ⟨operand, ho, hn⟩
  exact h operand ho node hn

/-- The nodes of a filter without a lambda are the filter and those of its source. -/
theorem forall_mem_walk_filter {kind : FilterKind} {source : Expr} :
    (∀ node ∈ (filter kind source).walk, p node) ↔
      p (filter kind source) ∧ ∀ node ∈ source.walk, p node := by
  rw [walk, List.forall_mem_cons]

/-- The nodes of a filter with a lambda are the filter, those of its source and those of the body.
-/
theorem forall_mem_walk_filterBy {kind : FilterKind} {source : Expr} {binder : String}
    {body : Expr} :
    (∀ node ∈ (filterBy kind source binder body).walk, p node) ↔
      p (filterBy kind source binder body) ∧ (∀ node ∈ source.walk, p node) ∧
        ∀ node ∈ body.walk, p node := by
  rw [walk, List.forall_mem_cons, List.forall_mem_append]

/-! ## Parameters -/

/-- The parameters that an expression refers to are those in its nodes. -/
theorem mem_parameterRefs {e : Expr} {ref : ParameterRef} :
    ref ∈ e.parameterRefs ↔ .parameter ref ∈ e.walk := by
  unfold parameterRefs
  rw [List.mem_filterMap]
  constructor
  · rintro ⟨node, hnode, href⟩
    cases node
    case parameter => cases href; exact hnode
    all_goals cases href
  · intro hnode
    exact ⟨.parameter ref, hnode, rfl⟩

end Expr

namespace Parameters

variable {params : Parameters} {body : Expr}

/-- The check succeeds when every parameter of the body has a value. -/
theorem check_eq_ok_iff :
    params.check body = .ok () ↔ ∀ ref ∈ body.parameterRefs, (params.get? ref).isSome := by
  unfold check
  split
  · rename_i missing hfound
    refine iff_of_false (by rintro ⟨⟩) fun h => ?_
    have hmissing := List.find?_some hfound
    have hsome := h missing (List.mem_of_find?_eq_some hfound)
    rw [Option.isNone_iff_eq_none] at hmissing
    rw [hmissing] at hsome
    cases hsome
  · rename_i hnone
    refine iff_of_true rfl fun ref href => ?_
    have hfound := List.find?_eq_none.mp hnone ref href
    rw [Option.isNone_iff_eq_none] at hfound
    exact Option.isSome_iff_ne_none.mpr hfound

/-- The check fails with the first parameter, parents first, that has no value. -/
theorem exists_missing_of_check_eq_error {e : QueryError} (h : params.check body = .error e) :
    ∃ before missing after, body.walk = before ++ .parameter missing :: after ∧
      (∀ ref, .parameter ref ∈ before → (params.get? ref).isSome) ∧
      params.get? missing = Option.none ∧ e = .parameterMissing missing params.size := by
  unfold check at h
  split at h
  · rename_i missing hfound
    rw [Expr.parameterRefs, List.find?_filterMap] at hfound
    obtain ⟨node, hnode, hmissing⟩ := Option.bind_eq_some_iff.mp hfound
    obtain ⟨hlacking, before, after, hwalk, hbefore⟩ := List.find?_eq_some_iff_append.mp hnode
    cases node
    case parameter ref =>
      obtain rfl : ref = missing := Option.some.inj hmissing
      refine ⟨before, ref, after, hwalk, fun other hother => ?_, ?_, (Except.error.inj h).symm⟩
      · have hsupplied := hbefore _ hother
        rcases hother : params.get? other with _ | value
        · simp [Expr.parameter?, hother] at hsupplied
        · rfl
      · exact Option.isNone_iff_eq_none.mp hlacking
    all_goals cases hmissing
  · cases h

end Parameters

end RecordQuery
