import RecordQuery.Eval.Meaning
import RecordQuery.Proofs.Expr.Nodes

/-!
# What expressions see of their context

A tree sees its context at two kinds of nodes: where it refers to a parameter, and where an operator
is called. Contexts that agree at every node of a tree (`Context.AgreeAt`) give it the same meaning;
the induction over the tree is done once, in `Expr.meaning_eq_of_agreeAt`. There is a corollary for
each part of a context.

* `Expr.meaning_congr`: of query objects, a tree sees how they test and how they take sequences. It
  cannot make an object that tests candidates get ready, clean up or perform (`Registry.callable`).
* `Expr.meaning_eq_of_parameterRefs`: of parameters, it sees those that it refers to.
* `Expr.meaning_withTranslations`: of translations it sees nothing, unless it has a translated
  property.
-/

namespace RecordQuery

/-! ## Contexts that agree -/

/-- Two contexts agree at a node: they have the same value for its parameter, if it is one, and its
operator, if it has one, makes the same of its operands in both. -/
def Context.AgreeAt (ctx ctx' : Context) : Expr → Prop
  | .parameter ref => ctx'.parameters.get? ref = ctx.parameters.get? ref
  | .call op _ => ∀ operands, Meaning.ofCall ctx' op operands = Meaning.ofCall ctx op operands
  | _ => True

namespace Expr

variable {ctx ctx' : Context}

mutual

/-- **A tree means the same in contexts that agree at its nodes.** -/
theorem meaning_eq_of_agreeAt : ∀ e : Expr,
    (∀ node ∈ e.walk, ctx.AgreeAt ctx' node) → e.meaning ctx' = e.meaning ctx
  | .literal _, _ => by rw [meaning, meaning]
  | .var _, _ => by rw [meaning, meaning]
  | .parameter ref, h => by
    have hget : ctx'.parameters.get? ref = ctx.parameters.get? ref := h _ (mem_walk_self _)
    rw [meaning, meaning, Eval.parameter, hget]
    rfl
  | .lambda _ body, h => by
    rw [forall_mem_walk_lambda] at h
    rw [meaning, meaning, meaning_eq_of_agreeAt body h.2]
  | .call op operands, h => by
    rw [forall_mem_walk_call] at h
    have hcall : ∀ operands, Meaning.ofCall ctx' op operands = Meaning.ofCall ctx op operands := h.1
    rw [meaning, meaning, meanings_eq_of_agreeAt operands h.2, hcall]
  | .filter _ source, h => by
    rw [forall_mem_walk_filter] at h
    rw [meaning, meaning, meaning_eq_of_agreeAt source h.2]
  | .filterBy _ source _ body, h => by
    rw [forall_mem_walk_filterBy] at h
    rw [meaning, meaning, meaning_eq_of_agreeAt source h.2.1, meaning_eq_of_agreeAt body h.2.2]

/-- So do the operands of a call. -/
theorem meanings_eq_of_agreeAt : ∀ es : List Expr,
    (∀ e ∈ es, ∀ node ∈ e.walk, ctx.AgreeAt ctx' node) → meanings ctx' es = meanings ctx es
  | [], _ => by rw [meanings, meanings]
  | e :: rest, h => by
    rw [List.forall_mem_cons] at h
    rw [meanings, meanings, meaning_eq_of_agreeAt e h.1, meanings_eq_of_agreeAt rest h.2]

end

end Expr

/-! ## Query objects -/

/-- The registry in which objects that test candidates can do nothing else. -/
def Registry.callable (queries : Registry) : Registry where
  matching name := .ofTest [] (queries.matching name).test []
  sequence := queries.sequence

/-- Registries are the same to expressions if their objects test alike and take sequences alike. -/
theorem Registry.callable_eq {queries queries' : Registry}
    (htest : ∀ name, (queries.matching name).test = (queries'.matching name).test)
    (hsequence : queries.sequence = queries'.sequence) : queries.callable = queries'.callable := by
  unfold callable
  rw [hsequence]
  congr
  funext name
  rw [htest name]

/-- The context in which objects that test candidates can do nothing else. -/
def Context.callable (ctx : Context) : Context :=
  { ctx with queries := ctx.queries.callable }

/-- The operators use no more of a query object than can be called. -/
theorem Meaning.ofCall_callable (ctx : Context) (op : Operator) (operands : List Meaning) :
    Meaning.ofCall ctx.callable op operands = Meaning.ofCall ctx op operands := rfl

namespace Expr

/-- **No expression notices** that an object can do nothing but test. -/
theorem meaning_callable (ctx : Context) (e : Expr) : e.meaning ctx.callable = e.meaning ctx := by
  refine meaning_eq_of_agreeAt e fun node _ => ?_
  cases node with
  | call op _ => exact Meaning.ofCall_callable ctx op
  | parameter ref => rfl
  | _ => trivial

/-- Registries that are the same to expressions give them the same meaning. -/
theorem meaning_congr (parameters : Parameters) (translations : Option Translations)
    {queries queries' : Registry} (h : queries.callable = queries'.callable) (e : Expr) :
    e.meaning ⟨parameters, translations, queries⟩ =
      e.meaning ⟨parameters, translations, queries'⟩ := by
  rw [← meaning_callable ⟨parameters, translations, queries⟩,
    ← meaning_callable ⟨parameters, translations, queries'⟩]
  unfold Context.callable
  rw [h]

end Expr

/-! ## Parameters -/

/-- The context with other parameters. -/
def Context.withParameters (ctx : Context) (params : Parameters) : Context :=
  { ctx with parameters := params }

/-- An operator sees no parameters but through its operands. -/
theorem Meaning.ofCall_withParameters (ctx : Context) (params : Parameters) (op : Operator)
    (operands : List Meaning) :
    Meaning.ofCall (ctx.withParameters params) op operands = Meaning.ofCall ctx op operands := rfl

/-- **A run sees no parameters but those of its tree**: two contexts that are otherwise the same,
and give these the same values, give the tree the same meaning. -/
theorem Expr.meaning_eq_of_parameterRefs {ctx : Context} {params : Parameters} {e : Expr}
    (h : ∀ ref ∈ e.parameterRefs, params.get? ref = ctx.parameters.get? ref) :
    e.meaning (ctx.withParameters params) = e.meaning ctx := by
  refine meaning_eq_of_agreeAt e fun node hnode => ?_
  cases node with
  | call op _ => exact Meaning.ofCall_withParameters ctx params op
  | parameter ref => exact h ref (mem_parameterRefs.mpr hnode)
  | _ => trivial

/-! ## Translations -/

/-- The context with other translations, or with none. -/
def Context.withTranslations (ctx : Context) (translations : Option Translations) : Context :=
  { ctx with translations }

/-- Of all operators, only one sees the translations other than through its operands. -/
theorem Meaning.ofCall_withTranslations (ctx : Context) (translations : Option Translations)
    {op : Operator} (hop : op ≠ .translated) (operands : List Meaning) :
    Meaning.ofCall (ctx.withTranslations translations) op operands =
      Meaning.ofCall ctx op operands := by
  rcases operands with _ | ⟨a, _ | ⟨b, _ | ⟨c, rest⟩⟩⟩
  all_goals
    cases op
    case translated => exact absurd rfl hop
    all_goals rfl

/-- **A tree without translated properties means the same with any translations**, and with none. -/
theorem Expr.meaning_withTranslations {ctx : Context} {translations : Option Translations}
    {e : Expr} (h : e.needsTranslations = false) :
    e.meaning (ctx.withTranslations translations) = e.meaning ctx := by
  refine meaning_eq_of_agreeAt e fun node hnode => ?_
  have huntranslated : node.isTranslated = false :=
    Bool.eq_false_iff.mpr (List.any_eq_false.mp h node hnode)
  cases node with
  | call op _ =>
      refine Meaning.ofCall_withTranslations ctx translations ?_
      rintro rfl
      cases huntranslated
  | parameter ref => rfl
  | _ => trivial

end RecordQuery
