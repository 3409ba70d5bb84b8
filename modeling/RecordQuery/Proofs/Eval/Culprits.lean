import RecordQuery.Catalog
import RecordQuery.Proofs.Eval.Blame

/-!
# What an error points at

A user who reads an error looks for its cause in the query. `Expr.Involves` says what there is to be
found: the operator or the filter that the error names, the call of what is no query object, the
variable, or the parameter and its missing value. Two names need not be written in the query.
`this` is read by every lambda that stands alone and by every call without a target, and the
working set, which fails under the name of its variable, is also taken by a call without a target.

* `Expr.Blames.involves`: a tree has a part in every error that it can be blamed for.
* `Expr.run_call_of_not_allows`: a call with a wrong number of operands evaluates none of them.
* **Main statement** (`Expr.involves_or_carries_or_causes`): every error of an evaluation, unless it
  comes with an item or from a query object, points at a part of the tree.
-/

namespace RecordQuery

namespace Expr

/-! ## Single nodes -/

/-- The name of the operator or of the filter at a node. -/
def operatorName? : Expr → Option String
  | .call op _ => some op.name
  | .filter kind _ | .filterBy kind _ _ _ => some kind.name
  | .literal _ | .var _ | .parameter _ | .lambda _ _ => none

/-- Whether a node calls a query object. -/
def callsQuery : Expr → Bool
  | .call .query _ => true
  | _ => false

/-- Whether a node can read the candidate at hand without naming it: as a lambda, or as a call that
is given no target. -/
def usesCandidate : Expr → Bool
  | .lambda _ _ => true
  | .call .query [_] => true
  | _ => false

/-! ## Errors -/

/-- What an error is about has a place among the nodes of a tree, where the parameters have these
values. -/
def Involves (e : Expr) (params : Parameters) : QueryError → Prop
  | .evaluation operator _ _ =>
    (∃ node ∈ e.walk, node.operatorName? = some operator) ∨
      operator = everythingName ∧ ∃ node ∈ e.walk, node.usesWorkingSet = true
  | .notAQuery _ => ∃ node ∈ e.walk, node.callsQuery = true
  | .variableUnbound name =>
    (∃ node ∈ e.walk, node.readName? = some name) ∨
      name = thisName ∧ ∃ node ∈ e.walk, node.usesCandidate = true
  | .parameterUnbound ref => ref ∈ e.parameterRefs ∧ params.get? ref = none
  | .parameterMissing _ _ => False

instance (e : Expr) (params : Parameters) : DecidablePred (e.Involves params)
  | .evaluation _ _ _ | .variableUnbound _ => inferInstanceAs (Decidable (_ ∨ _ ∧ _))
  | .notAQuery _ => inferInstanceAs (Decidable (∃ node ∈ e.walk, node.callsQuery = true))
  | .parameterUnbound ref =>
    inferInstanceAs (Decidable (ref ∈ e.parameterRefs ∧ params.get? ref = none))
  | .parameterMissing _ _ => inferInstanceAs (Decidable False)

variable {params : Parameters} {e : Expr} {error : QueryError}

/-- What has a place in a part has one in the whole. -/
theorem Involves.of_walk_subset {part : Expr} (hsub : part.walk ⊆ e.walk)
    (h : part.Involves params error) : e.Involves params error := by
  cases error with
  | parameterMissing => exact h
  | parameterUnbound ref =>
      obtain ⟨hmem, hnone⟩ := h
      exact ⟨mem_parameterRefs.mpr (hsub (mem_parameterRefs.mp hmem)), hnone⟩
  | variableUnbound name =>
      rcases h with ⟨node, hmem, hname⟩ | ⟨hthis, node, hmem, huses⟩
      · exact .inl ⟨node, hsub hmem, hname⟩
      · exact .inr ⟨hthis, node, hsub hmem, huses⟩
  | notAQuery =>
      obtain ⟨node, hmem, hcalls⟩ := h
      exact ⟨node, hsub hmem, hcalls⟩
  | evaluation operator =>
      rcases h with ⟨node, hmem, hname⟩ | ⟨heverything, node, hmem, huses⟩
      · exact .inl ⟨node, hsub hmem, hname⟩
      · exact .inr ⟨heverything, node, hsub hmem, huses⟩

/-- **A tree has a part in every error that it can be blamed for.** By induction on the blame: its
constructors name the node, and what a part is to blame for the whole contains. -/
theorem Blames.involves {scope : List String} (h : Blames params scope e error) :
    e.Involves params error := by
  induction h with
  | unbound => exact .inl ⟨_, mem_walk_self _, rfl⟩
  | workingSet huses => exact .inr ⟨rfl, _, mem_walk_self _, huses⟩
  | parameter hnone => exact ⟨mem_parameterRefs.mpr (mem_walk_self _), hnone⟩
  | lambda | candidate => exact .inr ⟨rfl, _, mem_walk_self _, rfl⟩
  | object => exact ⟨_, mem_walk_self _, rfl⟩
  | operator | filter => exact .inl ⟨_, mem_walk_self _, rfl⟩
  | part hpart _ ih =>
      apply ih.of_walk_subset
      exact hpart.forall_mem_walk fun _ hmem => hmem

end Expr

/-! ## Wrong numbers of operands -/

/-- A position is the first that is missing from a number of operands, or the first that is one too
many. -/
def Arity.IsFirstWrong (arity : Arity) (count position : Nat) : Prop :=
  count < arity.min ∧ position = count ∨
    ∃ max, arity.max = some max ∧ max < count ∧ position = max

/-- The operand that a wrong number of operands is blamed on is the first that is missing or one
too many. -/
theorem Operator.isFirstWrong_blamed {op : Operator} {count : Nat}
    (h : op.arity.allows count = false) : op.arity.IsFirstWrong count (op.arity.blamed count) := by
  unfold Arity.IsFirstWrong Arity.blamed
  unfold Arity.allows at h
  rcases hmax : op.arity.max with _ | max
  · -- an operator without a greatest number can only lack operands
    simp only [hmax, Option.all_none, Bool.and_true, decide_eq_false_iff_not, Nat.not_le] at h
    exact .inl ⟨h, rfl⟩
  · simp only [hmax, Option.all_some, Bool.and_eq_false_iff, decide_eq_false_iff_not,
      Nat.not_le] at h
    by_cases hsurplus : max < count
    · refine .inr ⟨max, rfl, hsurplus, ?_⟩
      simp only [hsurplus, if_true]
    · refine .inl ⟨h.resolve_right hsurplus, ?_⟩
      simp only [hsurplus, if_false]

namespace Expr

variable (ctx : Context) {op : Operator} {operands : List Expr}

/-- Every operand has a meaning. -/
theorem length_meanings (operands : List Expr) :
    (meanings ctx operands).length = operands.length := by
  induction operands with
  | nil => rfl
  | cons e rest ih => rw [meanings, List.length_cons, List.length_cons, ih]

/-- **A call with a wrong number of operands fails before any is evaluated**, as a value and as a
sequence: nothing is seen of it, the state is kept, and the operands matter only by their number. -/
theorem run_call_of_not_allows (h : op.arity.allows operands.length = false) (state : State) :
    ((call op operands).value ctx).run state =
        ⟨.error (op.arityError operands.length), state, []⟩ ∧
      ((call op operands).source ctx).start.run state =
        ⟨.error (op.arityError operands.length), state, []⟩ := by
  have hmeaning : (call op operands).meaning ctx =
      .ofValue (throw (op.arityError operands.length)) := by
    rw [meaning, Meaning.ofCall_of_not_allows ctx (by rw [length_meanings, h]), length_meanings]
  unfold value source
  rw [hmeaning]
  exact ⟨rfl, rfl⟩

/-! ## All errors -/

/-- **Every error points at something in the tree.** An error of an evaluation, of opening a
sequence, or of a later pull on it, is one that the tree has a part in, unless an item of the
working set carries it or query objects cause it. A call with a wrong number of operands fails
before any of them is evaluated, and points at the first operand that is missing or one too many. -/
theorem involves_or_carries_or_causes :
    (∀ (e : Expr) (ctx : Context) (state : State) (error : QueryError),
        e.FailsWith ctx state error →
          e.Involves ctx.parameters error ∨ state.Carries error ∨
            ctx.queries.Causes error fun queries => e.FailsWith { ctx with queries } state error) ∧
      ∀ (op : Operator) (operands : List Expr), op.arity.allows operands.length = false →
        ∃ position, op.arity.IsFirstWrong operands.length position ∧
          ∀ (ctx : Context) (state : State),
            ((call op operands).value ctx).run state =
                ⟨.error (.evaluation op.name position (.arity op.arity operands.length)), state,
                  []⟩ ∧
              ((call op operands).source ctx).start.run state =
                ⟨.error (.evaluation op.name position (.arity op.arity operands.length)), state,
                  []⟩ := by
  refine ⟨fun e ctx state error hfails => ?_, fun op operands hcount => ?_⟩
  · rw [← or_assoc]
    refine Registry.or_causes_of_raises (fun queries hfails => ?_) hfails
    have hblames := e.blames_of_failsWith (List.forall_mem_nil _) hfails
    rw [← or_assoc] at hblames
    exact hblames.imp_left (Or.imp_left Blames.involves)
  · exact ⟨op.arity.blamed operands.length, Operator.isFirstWrong_blamed hcount,
      fun ctx => run_call_of_not_allows ctx hcount⟩

/-- A variable that the body of a lambda reads without a binding is found when an item is pulled, and
stands in the tree; a comparison of one operand lacks the second. -/
theorem involves_or_carries_or_causes_select :
    let e := everything.select ⟨"x", .call .less [.var "x", .var "bound"]⟩
    let ctx : Context := ⟨.none, none, Catalog.queries []⟩
    let state : State := ⟨[], .available (.ofValues [.integer 1])⟩
    e.FailsWith ctx state (.variableUnbound "bound") ∧
      (e.Involves ctx.parameters (.variableUnbound "bound") ∨
        state.Carries (.variableUnbound "bound") ∨
          ctx.queries.Causes (.variableUnbound "bound") fun queries =>
            e.FailsWith { ctx with queries } state (.variableUnbound "bound")) ∧
      Operator.less.arity.allows [e].length = false ∧
      ((call .less [e]).value ctx).run state =
        ⟨.error (.evaluation Operator.less.name 1 (.arity Operator.less.arity 1)), state, []⟩ := by
  intro e ctx state
  have hfails : e.FailsWith ctx state (.variableUnbound "bound") := .collect rfl
  have hcount : Operator.less.arity.allows [e].length = false := by decide
  obtain ⟨hinvolves, harity⟩ := involves_or_carries_or_causes
  obtain ⟨position, hwrong, hrun⟩ := harity .less [e] hcount
  have hposition : position = 1 := by
    rcases hwrong with ⟨-, hposition⟩ | ⟨max, hmax, hsurplus, -⟩
    · exact hposition
    · cases hmax
      exact absurd hsurplus (by decide)
  subst hposition
  exact ⟨hfails, hinvolves e ctx state _ hfails, hcount, (hrun ctx state).1⟩

/-- The body of a lambda has its part in an error; an operator that is nowhere in the tree has
none. -/
example :
    let e := everything.select ⟨"x", .call .less [.var "x", .var "bound"]⟩
    e.Involves .none (.variableUnbound "bound") ∧
      ¬e.Involves .none (.evaluation Operator.greater.name 1 .lambdaExpected) := by decide

end Expr

end RecordQuery
