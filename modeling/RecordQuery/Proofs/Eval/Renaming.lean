import RecordQuery.Catalog
import RecordQuery.Proofs.Eval.Blame

/-!
# Names of bound variables

A lambda may call its variable what it likes, as long as its body does not use the new name in any
other way. The bindings of the two runs differ in that one name: from the application of the lambda
on, what one run finds under the old name the other finds under the new one (`Bindings.Renamed`).
Under a lambda in the body that binds the old name again, neither name makes a difference: the body
does not read the new one, and the old one is bound alike.

* `Expr.rename_alike`: the body with the old name and the body with the new one, side by side.
* **Main statement** (`Expr.eval_eq_of_renamesLambda`): renaming the variable of one lambda,
  anywhere in a tree, changes nothing that can be observed.
-/

set_option linter.unusedSectionVars false

namespace RecordQuery

namespace Expr

/-! ## Renaming -/

mutual

/-- Renames the occurrences of a variable that no lambda of the tree binds. -/
def rename (x y : String) : Expr → Expr
  | .literal value => .literal value
  | .var name => .var (if name = x then y else name)
  | .parameter ref => .parameter ref
  | .lambda binder body => .lambda binder (if binder = x then body else rename x y body)
  | .call op operands => .call op (renameAll x y operands)
  | .filter kind source => .filter kind (rename x y source)
  | .filterBy kind source binder body =>
    .filterBy kind (rename x y source) binder (if binder = x then body else rename x y body)

/-- Renames the occurrences of a variable in several trees. -/
def renameAll (x y : String) : List Expr → List Expr
  | [] => []
  | e :: rest => rename x y e :: renameAll x y rest

end

/-- Two trees differ in the name of the variable of one lambda, `x` in the first and `y` in the
second, and in the occurrences that this lambda binds. The body of the lambda does not use the new
name in any other way. -/
inductive RenamesLambda (x y : String) : Expr → Expr → Prop
  /-- The lambda stands alone, or is applied by a quantifier. -/
  | lambda {body : Expr} (h : body.Avoids y) :
    RenamesLambda x y (.lambda x body) (.lambda y (body.rename x y))
  /-- It is the lambda of a filter. -/
  | filterBy {kind : FilterKind} {source body : Expr} (h : body.Avoids y) :
    RenamesLambda x y (.filterBy kind source x body) (.filterBy kind source y (body.rename x y))
  /-- It is in the body of a lambda. -/
  | inLambda {binder : String} {body body' : Expr} (h : RenamesLambda x y body body') :
    RenamesLambda x y (.lambda binder body) (.lambda binder body')
  /-- It is in an operand. -/
  | inOperand {op : Operator} {before after : List Expr} {e e' : Expr}
    (h : RenamesLambda x y e e') :
    RenamesLambda x y (.call op (before ++ e :: after)) (.call op (before ++ e' :: after))
  /-- It is in the source of a filter. -/
  | inFilter {kind : FilterKind} {source source' : Expr} (h : RenamesLambda x y source source') :
    RenamesLambda x y (.filter kind source) (.filter kind source')
  /-- It is in the source of a filter that has a lambda. -/
  | inSource {kind : FilterKind} {source source' : Expr} {binder : String} {body : Expr}
    (h : RenamesLambda x y source source') :
    RenamesLambda x y (.filterBy kind source binder body) (.filterBy kind source' binder body)
  /-- It is in the body of the lambda of a filter. -/
  | inBody {kind : FilterKind} {source : Expr} {binder : String} {body body' : Expr}
    (h : RenamesLambda x y body body') :
    RenamesLambda x y (.filterBy kind source binder body) (.filterBy kind source binder body')

end Expr

/-! ## Bindings that differ in a name -/

/-- What one state has under `x` the other has under `y`; under all other names they have the
same. -/
structure Bindings.Renamed (x y : String) (σ σ' : List (String × Value)) : Prop where
  /-- The variable that is renamed has the same value. -/
  renamed : Named.lookup y σ' = Named.lookup x σ
  /-- It has a value. -/
  bound : (Named.lookup x σ).isSome
  /-- All other variables have the same values. -/
  others : ∀ name, name ≠ x → name ≠ y → Named.lookup name σ' = Named.lookup name σ

namespace Bindings

variable {x y : String} {σ σ' : List (String × Value)}

/-- A lambda makes a binding on either side, each under its own name. -/
theorem Renamed.of_agree {scope : List String} (h : Agree (fun _ => True) scope σ σ')
    (value : Value) : Renamed x y ((x, value) :: σ) ((y, value) :: σ') := by
  refine ⟨?_, ?_, fun name hx hy => ?_⟩
  · rw [Named.lookup_cons_self, Named.lookup_cons_self]
  · rw [Named.lookup_cons_self]
    rfl
  · rw [Named.lookup_cons_of_ne hx.symm, Named.lookup_cons_of_ne hy.symm]
    exact h.lookup name (.inl trivial)

/-- A binding of another variable leaves the difference as it is. -/
theorem Renamed.push (h : Renamed x y σ σ') {binder : String} (hx : binder ≠ x) (hy : binder ≠ y)
    (value : Value) : Renamed x y ((binder, value) :: σ) ((binder, value) :: σ') := by
  refine ⟨?_, ?_, fun name hnx hny => ?_⟩
  · rw [Named.lookup_cons_of_ne hx, Named.lookup_cons_of_ne hy]
    exact h.renamed
  · rw [Named.lookup_cons_of_ne hx]
    exact h.bound
  · rw [Named.lookup, Named.lookup, h.others name hnx hny]

/-- Where the old name is bound again, the bindings differ in the new name only. -/
theorem Renamed.push_self (h : Renamed x y σ σ') (hy : ¬Expr.IsBuiltIn y) (value : Value) :
    Agree (· ≠ y) [] ((x, value) :: σ) ((x, value) :: σ') := by
  refine ⟨fun name hname => ?_, List.forall_mem_nil _⟩
  have hny : name ≠ y := hname.elim id fun hbuiltIn heq => hy (heq ▸ hbuiltIn)
  rw [Named.lookup, Named.lookup]
  split
  · rfl
  · rename_i hnx
    exact h.others name (Ne.symm hnx) hny

end Bindings

/-! ## Runs that share their working set -/

/-- Two runs of a tree that share their working set suit each other where the bindings agree on what
the tree reads. -/
theorem Comparison.suits_of_shared {ctx : Context} {Names : String → Prop} {e : Expr}
    (h : ∀ node ∈ e.walk, ∀ name ∈ node.readName?, Names name) (scope : List String) :
    (Comparison.anyError ctx.queries .shared).Suits Names scope e :=
  ⟨h, fun _ _ _ => trivial, fun _ _ => trivial⟩

namespace Expr

variable {ctx : Context} {x y : String}

/-- A tree beside itself. -/
theorem alike_self (e : Expr) (scope : List String) :
    Meaning.Alike (.anyError ctx.queries .shared) (Bindings.Agree (fun _ => True) scope)
      (e.meaning ctx) (e.meaning ctx) :=
  e.meaning_alike scope (Comparison.suits_of_shared (fun _ _ _ _ => trivial) scope)

/-- Several expressions are alike with themselves under bindings that agree. -/
theorem meanings_alike_self (es : List Expr) (scope : List String) :
    List.Forall₂ (Meaning.Alike (.anyError ctx.queries .shared)
      (Bindings.Agree (fun _ => True) scope)) (meanings ctx es) (meanings ctx es) :=
  meanings_alike es scope fun _ _ => Comparison.suits_of_shared (fun _ _ _ _ => trivial) scope

/-- So is the candidate at hand. -/
theorem alike_resolve_this (scope : List String) :
    Eval.Alike (.anyError ctx.queries .shared) (Bindings.Agree (fun _ => True) scope)
      (fun _ => True) (Eval.resolve thisName) (Eval.resolve thisName) :=
  Eval.alike_resolve_of_agree (.inl trivial) fun _ => trivial

/-- The meanings of two lists of expressions in a row are those of each. -/
theorem meanings_append (es es' : List Expr) :
    meanings ctx (es ++ es') = meanings ctx es ++ meanings ctx es' := by
  induction es with
  | nil => rw [meanings, List.nil_append, List.nil_append]
  | cons e rest ih => rw [List.cons_append, meanings, meanings, ih, List.cons_append]

/-! ## The body of the lambda -/

/-- A variable that keeps its name is read alike. -/
theorem alike_resolve_of_ne {name : String} (hx : name ≠ x) (hy : name ≠ y) :
    Eval.Alike (.anyError ctx.queries .shared) (Bindings.Renamed x y) (fun _ => True)
      (Eval.resolve name) (Eval.resolve name) :=
  Eval.alike_resolve fun _ _ h => ⟨h.others name hx hy, fun _ => ⟨rfl, trivial⟩⟩

/-- The variable that is renamed is read alike, under either name. -/
theorem alike_resolve_renamed :
    Eval.Alike (.anyError ctx.queries .shared) (Bindings.Renamed x y) (fun _ => True)
      (Eval.resolve x) (Eval.resolve y) := by
  refine Eval.alike_resolve fun σ σ' h => ⟨h.renamed, fun hnone => ?_⟩
  have hbound := h.bound
  rw [hnone] at hbound
  cases hbound

section

variable (hx : ¬IsBuiltIn x) (hy : ¬IsBuiltIn y)

include hy in
/-- A lambda in the body keeps its variable. If that is the old name, its own body is left as it
is. -/
theorem alike_binder_of_avoids {binder : String} (hbinder : binder ≠ y) {body : Expr}
    (hbody : body.Avoids y)
    (h : Meaning.Alike (.anyError ctx.queries .shared) (Bindings.Renamed x y) (body.meaning ctx)
      ((body.rename x y).meaning ctx)) :
    Binder.Alike (.anyError ctx.queries .shared) (Bindings.Renamed x y)
      ⟨binder, (body.meaning ctx).value⟩
      ⟨binder, ((if binder = x then body else body.rename x y).meaning ctx).value⟩ := by
  split
  · rename_i hrebound
    subst hrebound
    -- both sides bind the old name alike, and the body does not read the new one
    have hnames : ∀ node ∈ body.walk, ∀ name ∈ node.readName?, name ≠ y := by
      rintro node hnode name hname rfl
      exact (hbody node hnode).1 hname
    have hsame : Meaning.Alike (.anyError ctx.queries .shared) (Bindings.Agree (· ≠ y) [])
        (body.meaning ctx) (body.meaning ctx) :=
      body.meaning_alike [] (Comparison.suits_of_shared hnames [])
    exact Binder.alike_of_body (fun value _ _ hσ => hσ.push_self hy value) hsame.value
  · rename_i hne
    exact Binder.alike_of_body (fun value _ _ hσ => hσ.push hne hbinder value) h.value

include hx hy

/-- A variable that is built in is not renamed. -/
theorem ne_of_isBuiltIn {name : String} (hname : IsBuiltIn name) : name ≠ x ∧ name ≠ y :=
  ⟨fun heq => hx (heq ▸ hname), fun heq => hy (heq ▸ hname)⟩

mutual

/-- **A body does not notice how its variable is called.** By induction over the body; a lambda in
it that binds the old name again ends the difference between the runs. -/
theorem rename_alike : ∀ e : Expr, e.Avoids y →
    Meaning.Alike (.anyError ctx.queries .shared) (Bindings.Renamed x y) (e.meaning ctx)
      ((e.rename x y).meaning ctx)
  | .literal value, _ => by
    rw [rename, meaning]
    exact Meaning.alike_ofValue (Eval.alike_pure trivial)
  | .var name, h => by
    have hthis := ne_of_isBuiltIn hx hy (.inr rfl)
    rw [rename]
    split
    · rename_i hrenamed
      subst hrenamed
      rw [meaning, meaning]
      exact Meaning.alike_ofVar hthis.1.symm hthis.2.symm alike_resolve_renamed
    · rename_i hne
      rw [meaning]
      by_cases heverything : name = everythingName
      · subst heverything
        exact Meaning.alike_ofVar_everything (fun _ _ hσ => hσ.others _ hthis.1 hthis.2)
          (Source.alike_everything trivial trivial)
      · have hny : name ≠ y := fun heq => (h _ (mem_walk_self _)).1 (congrArg some heq)
        exact Meaning.alike_ofVar heverything heverything (alike_resolve_of_ne hne hny)
  | .parameter ref, _ => by
    rw [rename, meaning]
    exact Meaning.alike_ofValue (Eval.alike_parameter fun _ => trivial)
  | .lambda binder body, h => by
    have hthis := ne_of_isBuiltIn hx hy (.inl rfl)
    obtain ⟨hnode, hbody⟩ := forall_mem_walk_lambda.mp h
    have hbinder : binder ≠ y := fun heq => hnode.2 (congrArg some heq)
    rw [rename, meaning, meaning]
    exact Meaning.alike_ofLambda (alike_resolve_of_ne hthis.1 hthis.2)
      (alike_binder_of_avoids hy hbinder hbody (rename_alike body hbody))
  | .call op operands, h => by
    have hthis := ne_of_isBuiltIn hx hy (.inl rfl)
    rw [rename, meaning, meaning]
    refine Meaning.alike_ofCall (fun _ _ => trivial) (fun _ _ => trivial) (fun _ _ => ?_)
      (renameAll_alike operands (forall_mem_walk_call.mp h).2)
    exact .omitted (alike_resolve_of_ne hthis.1 hthis.2) (Source.alike_everything trivial trivial)
  | .filter kind source, h => by
    rw [rename, meaning, meaning]
    exact Meaning.alike_ofFilter trivial (rename_alike source (forall_mem_walk_filter.mp h).2)
  | .filterBy kind source binder body, h => by
    obtain ⟨hnode, hsource, hbody⟩ := forall_mem_walk_filterBy.mp h
    have hbinder : binder ≠ y := fun heq => hnode.2 (congrArg some heq)
    rw [rename, meaning, meaning]
    exact Meaning.alike_ofFilterBy kind (rename_alike source hsource)
      (alike_binder_of_avoids hy hbinder hbody (rename_alike body hbody))

/-- So do several expressions. -/
theorem renameAll_alike : ∀ es : List Expr, (∀ e ∈ es, e.Avoids y) →
    List.Forall₂ (Meaning.Alike (.anyError ctx.queries .shared) (Bindings.Renamed x y))
      (meanings ctx es) (meanings ctx (renameAll x y es))
  | [], _ => .nil
  | e :: rest, h => by
    rw [List.forall_mem_cons] at h
    exact .cons (rename_alike e h.1) (renameAll_alike rest h.2)

end

/-! ## Anywhere in a tree -/

/-- The lambda that is renamed, before and after. -/
theorem alike_binder_renamed {body : Expr} (hbody : body.Avoids y) (scope : List String) :
    Binder.Alike (.anyError ctx.queries .shared) (Bindings.Agree (fun _ => True) scope)
      ⟨x, (body.meaning ctx).value⟩ ⟨y, ((body.rename x y).meaning ctx).value⟩ :=
  Binder.alike_of_body (fun value _ _ hσ => .of_agree hσ value)
    (rename_alike hx hy body hbody).value

/-- A tree and the same tree in which a lambda has another name for its variable, side by side. By
induction on the place of the lambda. -/
theorem RenamesLambda.alike {e e' : Expr} (h : e.RenamesLambda x y e') :
    ∀ scope, Meaning.Alike (.anyError ctx.queries .shared)
      (Bindings.Agree (fun _ => True) scope) (e.meaning ctx) (e'.meaning ctx) := by
  induction h with
  | lambda hbody =>
      intro scope
      rw [meaning, meaning]
      exact Meaning.alike_ofLambda (alike_resolve_this scope)
        (alike_binder_renamed hx hy hbody scope)
  | filterBy hbody =>
      intro scope
      rw [meaning, meaning]
      exact Meaning.alike_ofFilterBy _ (alike_self _ scope)
        (alike_binder_renamed hx hy hbody scope)
  | inLambda _ ih =>
      intro scope
      rw [meaning, meaning]
      exact Meaning.alike_ofLambda (alike_resolve_this scope) (Binder.alike_of_agree (ih _).value)
  | inOperand _ ih =>
      intro scope
      rw [meaning, meaning, meanings_append, meanings_append, meanings, meanings]
      refine Meaning.alike_ofCall (fun _ _ => trivial) (fun _ _ => trivial) (fun _ _ => ?_) ?_
      · exact .omitted (alike_resolve_this scope) (Source.alike_everything trivial trivial)
      · exact List.rel_append (meanings_alike_self _ scope)
          (.cons (ih scope) (meanings_alike_self _ scope))
  | inFilter _ ih =>
      intro scope
      rw [meaning, meaning]
      exact Meaning.alike_ofFilter trivial (ih scope)
  | inSource _ ih =>
      intro scope
      rw [meaning, meaning]
      exact Meaning.alike_ofFilterBy _ (ih scope) (Binder.alike_of_agree (alike_self _ _).value)
  | inBody _ ih =>
      intro scope
      rw [meaning, meaning]
      exact Meaning.alike_ofFilterBy _ (alike_self _ scope) (Binder.alike_of_agree (ih _).value)

/-- **Bound names do not matter.** If the variable of one lambda of a tree is renamed, from `x` to
`y`, together with the occurrences that this lambda binds, then in every context the value of the
tree, its truth, and its sequence, when it is opened and at every pull, are what they were: results,
states afterwards and events are the same from every state, whatever it binds `x` and `y` to. -/
theorem eval_eq_of_renamesLambda {e e' : Expr} (h : e.RenamesLambda x y e') (ctx : Context) :
    e'.value ctx = e.value ctx ∧ e'.isTrue ctx = e.isTrue ctx ∧ e'.source ctx = e.source ctx := by
  have halike : Meaning.Alike (.anyError ctx.queries .shared)
      (Bindings.Agree (fun _ => True) []) (e.meaning ctx) (e'.meaning ctx) := h.alike hx hy []
  have hself : ∀ σ, Bindings.Agree (fun _ => True) [] σ σ :=
    fun _ => ⟨fun _ _ => rfl, List.forall_mem_nil _⟩
  have hvalue : e'.value ctx = e.value ctx := Action.Alike.eq hself halike.value
  refine ⟨hvalue, ?_, Source.Alike.eq hself halike.source⟩
  rw [isTrue, isTrue, hvalue]

end

/-- A selection whose lambda, with a variable of the given name, holds another lambda over `x`. -/
def nestedSelection (name : String) : Expr :=
  everything.select ⟨name, .call .exists [.var name, .lambda "x" (.var "x")]⟩

/-- The context without parameters, translations and query objects. -/
def bareContext : Context :=
  ⟨.none, none, Catalog.queries []⟩

/-- The outer one of two lambdas over `x` is renamed. What the inner one binds stays as it is. -/
theorem eval_eq_of_renamesLambda_nested :
    (¬IsBuiltIn "x" ∧ ¬IsBuiltIn "y" ∧
        (nestedSelection "x").RenamesLambda "x" "y" (nestedSelection "y")) ∧
      (nestedSelection "y").value bareContext = (nestedSelection "x").value bareContext ∧
      (nestedSelection "y").isTrue bareContext = (nestedSelection "x").isTrue bareContext ∧
      (nestedSelection "y").source bareContext = (nestedSelection "x").source bareContext := by
  have hx : ¬IsBuiltIn "x" := by decide
  have hy : ¬IsBuiltIn "y" := by decide
  have hbody : (Expr.call .exists [.var "x", .lambda "x" (.var "x")]).Avoids "y" := by
    unfold Avoids
    simp [walk, walkAll, readName?, boundName?]
  have hrenames : (nestedSelection "x").RenamesLambda "x" "y" (nestedSelection "y") :=
    .filterBy hbody
  exact ⟨⟨hx, hy, hrenames⟩, eval_eq_of_renamesLambda hx hy hrenames bareContext⟩

end Expr

end RecordQuery
