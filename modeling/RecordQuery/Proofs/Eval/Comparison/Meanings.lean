import RecordQuery.Proofs.Eval.Comparison.Sources
import RecordQuery.Proofs.Eval.Discipline.Meanings
import RecordQuery.Proofs.Expr.Nodes

/-!
# Meanings side by side

Operators, calls of query objects and filters make meanings that are alike of operands that are
alike. Each statement says which errors of the node itself have to be expected, and what it needs of
the variables that the node reads without naming them: a call without a target reads the candidate
at hand or the working set, and a lambda that stands alone reads the candidate at hand.
-/

namespace RecordQuery

variable {ctx : Context} (c : Comparison ctx.queries) (B : Bindings.Relation)

/-- All that two expressions mean is alike. -/
structure Meaning.Alike (m m' : Meaning) : Prop where
  /-- The values are alike. -/
  value : Eval.Alike c B (fun _ => True) m.value m'.value
  /-- The sequences are alike. -/
  source : Source.Alike c B m.source m'.source
  /-- Both are lambdas that are alike, or neither is one. -/
  lambda : Option.Rel (Binder.Alike c B) m.lambda? m'.lambda?
  /-- Both are selections that are alike, or neither is one. -/
  selection : Option.Rel
    (fun inner inner' => Source.Alike c B inner.1 inner'.1 ∧ Binder.Alike c B inner.2 inner'.2)
    m.selection? m'.selection?

/-- Two targets of calls are alike. Where a target is left out, the candidate at hand and the
working set, either of which can stand in for it, are read alike. -/
inductive Operator.TargetAlike : Option Meaning → Option Meaning → Prop
  /-- Both calls have a target. -/
  | given {m m' : Meaning} (h : Meaning.Alike c B m m') : TargetAlike (some m) (some m')
  /-- Neither call has one. -/
  | omitted (hthis : Eval.Alike c B (fun _ => True) (Eval.resolve Expr.thisName)
      (Eval.resolve Expr.thisName)) (heverything : Source.Alike c B .everything .everything) :
    TargetAlike none none

variable {c B}

/-! ## Operators -/

namespace Operator

/-- Conjunctions are alike if their operands are, by induction on them. -/
theorem alike_conjunction {operands operands' : List Meaning}
    (h : List.Forall₂ (Meaning.Alike c B) operands operands') :
    Eval.Alike c B (fun _ => True) (conjunction operands) (conjunction operands') := by
  induction h with
  | nil => exact Eval.alike_pure trivial
  | cons hoperand _ ih =>
      refine Eval.alike_bind hoperand.value fun value _ => ?_
      split
      · exact ih
      · exact Eval.alike_pure trivial

/-- So are disjunctions. -/
theorem alike_disjunction {operands operands' : List Meaning}
    (h : List.Forall₂ (Meaning.Alike c B) operands operands') :
    Eval.Alike c B (fun _ => True) (disjunction operands) (disjunction operands') := by
  induction h with
  | nil => exact Eval.alike_pure trivial
  | cons hoperand _ ih =>
      refine Eval.alike_bind hoperand.value fun value _ => ?_
      split
      · exact Eval.alike_pure trivial
      · exact ih

section fault

variable {op : Operator} (hfault : ∀ operand fault, c.Expected (op.fault operand fault))

include hfault

/-- A comparison has an answer, or a fault of the operator. -/
theorem succeeds_order (left right : Value) : c.Succeeds (fun _ => True) (op.order left right) := by
  unfold order
  split
  · trivial
  · exact hfault _ _

/-- Looking up a property has a result, or a fault of the operator. -/
theorem succeeds_property (target : Value) (name : String) :
    c.Succeeds (fun _ => True) (op.property target name) := by
  unfold property
  split
  · trivial
  · trivial
  · exact hfault _ _

/-- Reading a property is alike if its operands are. -/
theorem alike_readProperty {target target' name name' : Meaning}
    (ht : Meaning.Alike c B target target') (hn : Meaning.Alike c B name name') :
    Eval.Alike c B (fun _ => True) (op.readProperty target name)
      (op.readProperty target' name') := by
  refine Eval.alike_bind ht.value fun target _ => Eval.alike_bind hn.value fun name _ => ?_
  split
  · exact Eval.alike_report _ (succeeds_property hfault target _)
  · exact Eval.alike_throw (hfault _ _)

/-- What an operator does with lambdas that are alike, where both operands are lambdas; where
neither is, it fails. -/
theorem alike_lambdaOperand_bind {α : Type} {operand operand' : Meaning} {f f' : Binder → Eval α}
    (h : Option.Rel (Binder.Alike c B) operand.lambda? operand'.lambda?)
    (hf : ∀ binder binder', Binder.Alike c B binder binder' →
      Eval.Alike c B (fun _ => True) (f binder) (f' binder')) :
    Eval.Alike c B (fun _ => True) (op.lambdaOperand operand >>= f)
      (op.lambdaOperand operand' >>= f') := by
  unfold lambdaOperand
  generalize operand.lambda? = lambda, operand'.lambda? = lambda' at h ⊢
  cases h with
  | some hbinder => exact hf _ _ hbinder
  | none =>
      exact Eval.alike_bind (P := fun _ => False) (Eval.alike_throw (hfault 1 .lambdaExpected))
        fun _ hnever => hnever.elim

end fault

/-- Matching a pattern has an answer, or a fault of the operator. -/
theorem succeeds_fit (hfault : ∀ operand fault, c.Expected (Operator.fits.fault operand fault))
    (left right : Value) :
    c.Succeeds (fun _ => True) ((fit left right).map Value.boolean) := by
  unfold fit
  split
  case h_2 =>
    split
    · trivial
    · exact hfault _ _
  all_goals trivial

/-- Translating a property is alike, with or without translations. -/
theorem alike_localize (raw : Value) :
    Eval.Alike c B (fun _ => True) (localize ctx raw) (localize ctx raw) := by
  unfold localize
  split
  · refine Eval.alike_bind (Eval.alike_translate _ _) fun text _ => ?_
    rcases text with _ | text <;> exact Eval.alike_pure trivial
  · exact Eval.alike_pure trivial

/-- The number of a limit is alike, if being none is expected. -/
theorem alike_limitCount {count count' : Eval Value}
    (hfault : ∀ operand fault, c.Expected (Operator.limit.fault operand fault))
    (h : Eval.Alike c B (fun _ => True) count count') :
    Eval.Alike c B (fun _ => True) (limitCount count) (limitCount count') := by
  refine Eval.alike_bind h fun value _ => ?_
  split
  · split
    · exact Eval.alike_pure trivial
    · exact Eval.alike_throw (hfault _ _)
  · exact Eval.alike_throw (hfault _ _)

section quantifiers

variable {source source' : Source} (h : Source.Alike c B source source') {binder binder' : Binder}
  (hb : Binder.Alike c B binder binder')

include h

/-- Counting is alike. -/
theorem alike_countItems :
    Eval.Alike c B (fun _ => True) (countItems source) (countItems source') :=
  h.read (fun _ _ => Eval.alike_pure trivial) _

include hb

/-- Looking for an item that passes is alike. -/
theorem alike_someItem :
    Eval.Alike c B (fun _ => True) (someItem source binder) (someItem source' binder') :=
  h.read (fun _ value => Eval.alike_bind (hb.test value) fun _ _ => Eval.alike_pure trivial) _

/-- Looking for an item that does not pass is alike. -/
theorem alike_everyItem :
    Eval.Alike c B (fun _ => True) (everyItem source binder) (everyItem source' binder') :=
  h.read (fun _ value => Eval.alike_bind (hb.test value) fun _ _ => Eval.alike_pure trivial) _

/-- Finding the first item that passes is alike. -/
theorem alike_firstItem :
    Eval.Alike c B (fun _ => True) (firstItem source binder) (firstItem source' binder') :=
  h.read (fun _ value => Eval.alike_bind (hb.test value) fun _ _ => Eval.alike_pure trivial) _

end quantifiers

/-! ## Calls of query objects -/

/-- What is called is alike, if being no query is expected. -/
theorem alike_queryRef {object object' : Eval Value}
    (hnone : ∀ typeName, c.Expected (.notAQuery typeName))
    (h : Eval.Alike c B (fun _ => True) object object') :
    Eval.Alike c B (fun _ => True) (queryRef object) (queryRef object') := by
  refine Eval.alike_bind h fun value _ => ?_
  split
  · exact Eval.alike_pure trivial
  · exact Eval.alike_throw (hnone _)

variable {target target' : Option Meaning} (ht : TargetAlike c B target target')

include ht

/-- Testing a candidate is alike: the failure of a test is one that query objects bring up. -/
theorem alike_callMatching (name : String) :
    Eval.Alike c B (fun _ => True) (callMatching ctx name target)
      (callMatching ctx name target') := by
  let test := (ctx.queries.matching name).test
  have htest : ∀ candidate, Eval.Alike c B (fun _ => True)
      (Eval.report (test candidate).trace ((test candidate).result.map Value.boolean))
      (Eval.report (test candidate).trace ((test candidate).result.map Value.boolean)) := by
    intro candidate
    refine Eval.alike_report _ ?_
    rcases hresult : (test candidate).result with e | passes
    · exact c.expected_of_raises (.test hresult)
    · trivial
  cases ht with
  | given h => exact Eval.alike_bind h.value fun candidate _ => htest candidate
  | omitted hthis => exact Eval.alike_bind hthis fun candidate _ => htest candidate

/-- What a query object is given is alike. -/
theorem alike_callInput : Source.Alike c B (callInput target) (callInput target') := by
  cases ht with
  | given h => exact h.source
  | omitted _ heverything => exact heverything

/-- What a query object makes of its sequence is alike. A failure to open came with an item that it
was given, or the object brought it up by itself. -/
theorem alike_performOn (name : String) {input : Cursor} (hinput : c.Admits input) :
    Eval.Alike c B c.Admits (performOn ctx name target input)
      (performOn ctx name target' input) := by
  unfold performOn
  split
  · rename_i perform hq
    exact Eval.alike_bind ((alike_callInput ht).handOver hq hinput) fun values _ =>
      Eval.alike_pure (Comparison.admits_values values)
  · rename_i opening width pull hq
    have hanswers : ∀ given opened, opening.Answers given opened →
        (∀ item ∈ given, c.Admissible (some item)) → c.Succeeds (fun _ => True) opened := by
      rintro given (e | _) hopened hgiven
      · by_cases hcarried : .error e ∈ given
        · exact hgiven _ hcarried e rfl
        · exact c.expected_of_raises (.opening hq hopened hcarried)
      · trivial
    have hconsulted := (alike_callInput ht).consult hanswers .initial hinput
    refine Eval.alike_bind (Eval.alike_ofAction hconsulted)
      fun ⟨opened, exchange, input⟩ ⟨hopened, hinput⟩ => ?_
    exact Eval.alike_bind (Eval.alike_report [] hopened) fun _ _ => Eval.alike_pure hinput

/-- Giving a query object its sequence is alike. -/
theorem alike_callSequence (name : String) :
    Eval.Alike c B c.Admits (callSequence ctx name target) (callSequence ctx name target') :=
  Eval.alike_bind (alike_callInput ht).start fun _ hinput => alike_performOn ht name hinput

variable {object object' : Eval Value} (hnone : ∀ typeName, c.Expected (.notAQuery typeName))
  (h : Eval.Alike c B (fun _ => True) object object')

include hnone h

/-- The answers of a query object are alike as sequences. -/
theorem alike_querySource :
    Source.Alike c B (querySource ctx object target) (querySource ctx object' target') where
  start := by
    refine Eval.alike_bind (alike_queryRef hnone h) fun ref _ => ?_
    rcases ref with name | name
    · exact Eval.alike_bind (alike_callMatching ht name) fun value _ =>
        Eval.alike_pure (Comparison.admits_values _)
    · exact alike_callSequence ht name
  advance cursor hc := by
    rcases cursor with _ | _ | _ | _ | _ | ⟨name, width, exchange, input⟩
    case through =>
      rcases hq : ctx.queries.sequence name with perform | ⟨opening, most, pull⟩
      · rw [advance_through_of_collecting hq, advance_through_of_collecting hq]
        exact Action.alike_pure ⟨Comparison.admissible_none, hc⟩
      · rw [advance_through_of_streaming hq, advance_through_of_streaming hq]
        have hinput : c.Admits input := hc
        have hanswers : ∀ given answer, (pull exchange).Answers given answer →
            (∀ item ∈ given, c.Admissible (some item)) → c.Admissible answer := by
          rintro given answer hanswer hgiven e rfl
          by_cases hcarried : .error e ∈ given
          · exact hgiven _ hcarried e rfl
          · exact c.expected_of_raises (.pull hq hanswer hcarried)
        refine Action.alike_bind ((alike_callInput ht).consult hanswers exchange hinput)
          fun ⟨answer, exchange, input⟩ ⟨hanswer, hinput⟩ => ?_
        exact Action.alike_pure ⟨Comparison.admissible_handOn hanswer width exchange, hinput⟩
    all_goals exact Cursor.alike_read hc

/-- They are alike as values, too. -/
theorem alike_queryValue :
    Eval.Alike c B (fun _ => True) (queryValue ctx object target)
      (queryValue ctx object' target') := by
  refine Eval.alike_bind (alike_queryRef hnone h) fun ref _ => ?_
  rcases ref with name | name
  · exact alike_callMatching ht name
  · refine Eval.alike_bind (alike_callSequence ht name) fun cursor hc => ?_
    exact Eval.alike_bind ((alike_querySource ht hnone h).drain hc) fun _ _ =>
      Eval.alike_pure trivial

end Operator

/-! ## Meanings -/

namespace Meaning

/-- Meanings of values that are alike are alike. -/
theorem alike_ofValue {value value' : Eval Value}
    (h : Eval.Alike c B (fun _ => True) value value') :
    Meaning.Alike c B (ofValue value) (ofValue value') :=
  ⟨h, Source.alike_ofValue h, .none, .none⟩

/-- So are meanings of sequences. -/
theorem alike_ofSource {source source' : Source} (h : Source.Alike c B source source') :
    Meaning.Alike c B (ofSource source) (ofSource source') :=
  ⟨Eval.alike_map _ h.collect fun _ _ => trivial, h, .none, .none⟩

/-- Variables that are read alike, neither of which stands for the working set. -/
theorem alike_ofVar {name name' : String} (hname : name ≠ Expr.everythingName)
    (hname' : name' ≠ Expr.everythingName)
    (h : Eval.Alike c B (fun _ => True) (Eval.resolve name) (Eval.resolve name')) :
    Meaning.Alike c B (ofVar name) (ofVar name') := by
  unfold ofVar
  rw [if_neg hname, if_neg hname']
  exact alike_ofValue h

/-- The variable that stands for the working set unless it has a binding. -/
theorem alike_ofVar_everything
    (hlookup : ∀ σ σ', B σ σ' →
      Named.lookup Expr.everythingName σ' = Named.lookup Expr.everythingName σ)
    (hset : Source.Alike c B .everything .everything) :
    Meaning.Alike c B (ofVar Expr.everythingName) (ofVar Expr.everythingName) := by
  have hresolve : Eval.Alike c
      (fun σ σ' => B σ σ' ∧ (Named.lookup Expr.everythingName σ).isSome) (fun _ => True)
      (Eval.resolve Expr.everythingName) (Eval.resolve Expr.everythingName) := by
    refine Eval.alike_resolve fun σ σ' hσ => ⟨hlookup σ σ' hσ.1, fun hnone => ?_⟩
    have hsome := hσ.2
    rw [hnone] at hsome
    cases hsome
  unfold ofVar
  rw [if_pos rfl]
  refine ⟨?_, ⟨?_, fun _ hc => Cursor.alike_read hc⟩, .none, .none⟩
  · exact Eval.alike_ifBound hlookup hresolve
      (Eval.alike_bind hset.collect fun _ _ => Eval.alike_pure trivial)
  · exact Eval.alike_ifBound hlookup (Source.alike_ofValue hresolve).start hset.start

/-- A lambda that stands alone, applied to the candidate at hand. -/
theorem alike_ofLambda {binder binder' : Binder}
    (hthis : Eval.Alike c B (fun _ => True) (Eval.resolve Expr.thisName)
      (Eval.resolve Expr.thisName))
    (hb : Binder.Alike c B binder binder') :
    Meaning.Alike c B (ofLambda binder) (ofLambda binder') := by
  have happlied := Eval.alike_bind hthis fun candidate _ => hb candidate
  exact ⟨happlied, Source.alike_ofValue happlied, .some hb, .none⟩

/-! ### Operators -/

/-- Two operands that are values of their own, combined without a step. -/
theorem alike_pair (combine : Value → Value → Eval Value) {a b a' b' : Meaning}
    (ha : Meaning.Alike c B a a') (hb : Meaning.Alike c B b b')
    (hcombine : ∀ left right,
      Eval.Alike c B (fun _ => True) (combine left right) (combine left right)) :
    Meaning.Alike c B (ofValue do combine (← a.value) (← b.value))
      (ofValue do combine (← a'.value) (← b'.value)) := by
  refine alike_ofValue (Eval.alike_bind ha.value fun left _ => ?_)
  exact Eval.alike_bind hb.value fun right _ => hcombine left right

/-- Calls of query objects are alike. -/
theorem alike_query {object object' : Meaning} {target target' : Option Meaning}
    (hnone : ∀ typeName, c.Expected (.notAQuery typeName))
    (h : Meaning.Alike c B object object') (ht : Operator.TargetAlike c B target target') :
    Meaning.Alike c B (ofCall.query ctx object target) (ofCall.query ctx object' target') :=
  ⟨Operator.alike_queryValue ht hnone h.value, Operator.alike_querySource ht hnone h.value, .none,
    .none⟩

/-- A quantifier needs of its second operand only that it is a lambda. -/
theorem alike_quantifier {op : Operator} (hop : op.isQuantifier = true)
    (hfault : ∀ operand fault, c.Expected (op.fault operand fault))
    {source source' lambda lambda' : Meaning}
    (hs : Meaning.Alike c B source source')
    (hl : Option.Rel (Binder.Alike c B) lambda.lambda? lambda'.lambda?) :
    Meaning.Alike c B (ofCall ctx op [source, lambda]) (ofCall ctx op [source', lambda']) := by
  cases op
  case «exists» =>
    exact alike_ofValue (Operator.alike_lambdaOperand_bind hfault hl fun _ _ hb =>
      Operator.alike_someItem hs.source hb)
  case all =>
    exact alike_ofValue (Operator.alike_lambdaOperand_bind hfault hl fun _ _ hb =>
      Operator.alike_everyItem hs.source hb)
  case first =>
    exact alike_ofValue (Operator.alike_lambdaOperand_bind hfault hl fun _ _ hb =>
      Operator.alike_firstItem hs.source hb)
  all_goals cases hop

/-- An operator that tries operands in order until the result is known. -/
theorem alike_connective {run : List Meaning → Eval Bool} {operands operands' : List Meaning}
    (h : Eval.Alike c B (fun _ => True) (run operands) (run operands')) :
    Meaning.Alike c B (ofValue (.boolean <$> run operands))
      (ofValue (.boolean <$> run operands')) :=
  alike_ofValue (Eval.alike_map _ h fun _ _ => trivial)

/-- **Operators make meanings that are alike of operands that are alike.** -/
theorem alike_ofCall {op : Operator} {operands operands' : List Meaning}
    (hfault : ∀ operand fault, c.Expected (op.fault operand fault))
    (hnone : op = .query → ∀ typeName, c.Expected (.notAQuery typeName))
    (homitted : op = .query → operands.length = 1 → Operator.TargetAlike c B none none)
    (h : List.Forall₂ (Meaning.Alike c B) operands operands') :
    Meaning.Alike c B (ofCall ctx op operands) (ofCall ctx op operands') := by
  rcases hallows : op.arity.allows operands.length with _ | _
  · rw [ofCall_of_not_allows ctx hallows, ofCall_of_not_allows ctx (h.length_eq ▸ hallows),
      ← h.length_eq]
    exact alike_ofValue (Eval.alike_throw (hfault _ _))
  have hall := h
  rcases h with _ | ⟨ha, _ | ⟨hb, _ | ⟨hc, hrest⟩⟩⟩
  · -- no operator does without operands
    cases op <;> cases hallows
  · cases op
    case not =>
      exact alike_ofValue (Eval.alike_bind ha.value fun _ _ => Eval.alike_pure trivial)
    case count => exact alike_ofValue (Operator.alike_countItems ha.source)
    case query => exact alike_query (hnone rfl) ha (homitted rfl rfl)
    all_goals cases hallows
  · cases op
    case equals | notEquals =>
      exact alike_pair (fun left right => pure _) ha hb fun _ _ => Eval.alike_pure trivial
    case less | lessOrEqual | greater | greaterOrEqual =>
      exact alike_pair _ ha hb fun left right =>
        Eval.alike_report [] (Operator.succeeds_order hfault left right)
    case and => exact alike_connective (Operator.alike_conjunction hall)
    case or => exact alike_connective (Operator.alike_disjunction hall)
    case member => exact alike_ofValue (Operator.alike_readProperty hfault ha hb)
    case fits =>
      exact alike_pair _ ha hb fun left right =>
        Eval.alike_report [] (Operator.succeeds_fit hfault left right)
    case translated =>
      exact alike_ofValue (Eval.alike_bind (Operator.alike_readProperty hfault ha hb)
        fun raw _ => Operator.alike_localize raw)
    case «exists» | all | first => exact alike_quantifier rfl hfault ha hb.lambda
    case limit =>
      exact alike_ofSource (ha.source.limited (Operator.alike_limitCount hfault hb.value))
    case query => exact alike_query (hnone rfl) ha (.given hb)
    all_goals cases hallows
  · cases op
    case and => exact alike_connective (Operator.alike_conjunction hall)
    case or => exact alike_connective (Operator.alike_disjunction hall)
    all_goals cases hallows

/-! ### Filters -/

/-- The greatest versions behind selections are alike. -/
theorem alike_selectionLatest {source source' : Meaning} (h : Meaning.Alike c B source source')
    {binders binders' : List Binder} (hb : List.Forall₂ (Binder.Alike c B) binders binders') :
    Source.Alike c B (ofFilter.latest source binders) (ofFilter.latest source' binders') := by
  unfold ofFilter.latest
  have hselection := h.selection
  generalize source.selection? = selection, source'.selection? = selection' at hselection ⊢
  cases hselection with
  | some hinner => exact hinner.1.latest (.cons hinner.2 hb)
  | none => exact h.source.latest hb

/-- Filters without a lambda are alike, if its absence is expected. -/
theorem alike_ofFilter {kind : FilterKind} {source source' : Meaning}
    (hfault : c.Expected (.evaluation kind.name 1 .lambdaMissing))
    (h : Meaning.Alike c B source source') :
    Meaning.Alike c B (ofFilter kind source) (ofFilter kind source') := by
  cases kind
  case latest => exact alike_ofSource (alike_selectionLatest h .nil)
  case unique => exact alike_ofSource h.source.unique
  all_goals exact alike_ofSource (Source.alike_ofValue (Eval.alike_throw hfault))

/-- Filters with lambdas that are alike are alike. -/
theorem alike_ofFilterBy (kind : FilterKind) {source source' : Meaning} {binder binder' : Binder}
    (h : Meaning.Alike c B source source') (hb : Binder.Alike c B binder binder') :
    Meaning.Alike c B (ofFilterBy kind source binder) (ofFilterBy kind source' binder') := by
  cases kind
  case select =>
    have hsifted := alike_ofSource (h.source.sifted true hb)
    exact ⟨hsifted.value, hsifted.source, hsifted.lambda, .some ⟨h.source, hb⟩⟩
  case reject => exact alike_ofSource (h.source.sifted false hb)
  case collect => exact alike_ofSource (h.source.mapped hb)
  case latest => exact alike_ofSource (alike_selectionLatest h (.cons hb .nil))
  case unique => exact alike_ofSource h.source.unique

end Meaning

end RecordQuery
