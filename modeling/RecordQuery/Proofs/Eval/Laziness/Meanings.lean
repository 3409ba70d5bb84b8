import RecordQuery.Proofs.Eval.Laziness.Inquiries
import RecordQuery.Proofs.Eval.Laziness.Opening
import RecordQuery.Proofs.Expr.Nodes

/-!
# Lazy evaluation refines eager evaluation

Operators, filters and calls make meanings that refine one another (`Meaning.Refines`) of operands
that do. What collecting query objects answer has to depend on the items of their input only
(`Registry.AnswersByItems`): lazy evaluation hands them a sequence whose pulls leave events, eager
evaluation one whose pulls leave none. Streaming ones are given nothing but items.

* `Meaning.refines_ofCall`, `Meaning.refines_ofFilter`, `Meaning.refines_ofFilterBy`: the steps of
  the induction over expressions.
* `Expr.eager_refines`: the induction. A call without a target is completed on both sides first.
* **Main statement** (`Expr.lazy_eq_of_eager`): what eager evaluation gives, lazy evaluation gives.

Nothing is said of runs that fail: lazy evaluation leaves out what nothing asks for, and with it the
failures there.
-/

namespace RecordQuery

variable {ctx : Context} {α : Type} {s s' : State}

/-- All that an expression means in eager evaluation refines what it means in lazy evaluation. -/
structure Meaning.Refines (queries : Registry) (m m' : Meaning) : Prop where
  /-- The values refine one another. -/
  value : m.value.Refines m'.value
  /-- The sequences refine one another. -/
  source : m.source.Refines m'.source
  /-- Both are lambdas that refine one another, or neither is one. -/
  lambda : Option.Rel (Binder.Refines queries) m.lambda? m'.lambda?
  /-- Both are selections that refine one another, or neither is one. -/
  selection : Option.Rel
    (fun inner inner' => inner.1.Refines inner'.1 ∧ Binder.Refines queries inner.2 inner'.2)
    m.selection? m'.selection?

/-! ## Operators -/

namespace Operator

variable {queries : Registry}

/-- Conjunctions of operands that refine one another do so. -/
theorem refines_conjunction {operands operands' : List Meaning}
    (h : List.Forall₂ (Meaning.Refines queries) operands operands') :
    (conjunction operands).Refines (conjunction operands') := by
  induction h with
  | nil => exact Eval.refines_pure _
  | cons hoperand _ ih =>
      refine Eval.refines_bind hoperand.value fun value => ?_
      split
      · exact ih
      · exact Eval.refines_pure _

/-- So do disjunctions. -/
theorem refines_disjunction {operands operands' : List Meaning}
    (h : List.Forall₂ (Meaning.Refines queries) operands operands') :
    (disjunction operands).Refines (disjunction operands') := by
  induction h with
  | nil => exact Eval.refines_pure _
  | cons hoperand _ ih =>
      refine Eval.refines_bind hoperand.value fun value => ?_
      split
      · exact Eval.refines_pure _
      · exact ih

/-- So does reading a property. -/
theorem refines_readProperty (op : Operator) {target target' name name' : Meaning}
    (ht : Meaning.Refines queries target target') (hn : Meaning.Refines queries name name') :
    (op.readProperty target name).Refines (op.readProperty target' name') := by
  refine Eval.refines_bind ht.value fun target => Eval.refines_bind hn.value fun name => ?_
  split
  · exact Eval.refines_report _ _
  · exact Eval.refines_throw _

/-- Translating a property refines itself. -/
theorem refines_localize (raw : Value) : (localize ctx raw).Refines (localize ctx raw) := by
  unfold localize
  split
  · refine Eval.refines_bind (Eval.refines_report _ _) fun text => ?_
    rcases text with _ | text <;> exact Eval.refines_pure _
  · exact Eval.refines_pure _

/-- What an operator does with lambdas that refine one another, where both operands are lambdas. -/
theorem refines_lambdaOperand_bind (op : Operator) {operand operand' : Meaning}
    {f f' : Binder → Eval α}
    (h : Option.Rel (Binder.Refines queries) operand.lambda? operand'.lambda?)
    (hf : ∀ binder binder', Binder.Refines queries binder binder' →
      (f binder).Refines (f' binder')) :
    (op.lambdaOperand operand >>= f).Refines (op.lambdaOperand operand' >>= f') := by
  unfold lambdaOperand
  generalize operand.lambda? = lambda, operand'.lambda? = lambda' at h ⊢
  cases h with
  | some hbinder => exact hf _ _ hbinder
  | none =>
      intro s a s' hends
      obtain ⟨binder, s₁, hthrow, -⟩ := hends.bind
      exact absurd hthrow Eval.not_ends_throw

/-- Numbers of limits refine one another. -/
theorem refines_limitCount {count count' : Eval Value} (h : count.Refines count') :
    (limitCount count).Refines (limitCount count') := by
  refine Eval.refines_bind h fun value => ?_
  split
  · split
    · exact Eval.refines_pure _
    · exact Eval.refines_throw _
  · exact Eval.refines_throw _

section quantifiers

variable {eager lazy : Source} (h : eager.Refines lazy) {binder binder' : Binder}
  (hb : Binder.Refines queries binder binder')

include h

/-- So does counting. -/
theorem refines_countItems : (countItems eager).Refines (countItems lazy) :=
  h.read (fun _ _ => Eval.advances_pure _) (fun _ _ => Eval.refines_pure _) _

include hb

/-- A reader that tests each item with a lambda, and goes on or stops by the answer alone. -/
theorem refines_read_test {β : Type} (next : β → Value → Bool → Source.Progress β Value)
    (finish : β → Value) (gathered : β) :
    (eager.read (fun gathered value => next gathered value <$> binder.test value) finish
        gathered).Refines
      (lazy.read (fun gathered value => next gathered value <$> binder'.test value) finish
        gathered) := by
  refine h.read (fun gathered value => ?_) (fun gathered value => ?_) gathered
  · exact (Eval.obeys_map _ (hb.right.test value)).advances
  · exact Eval.refines_map _ (hb.test value)

/-- So does looking for an item that passes. -/
theorem refines_someItem : (someItem eager binder).Refines (someItem lazy binder') :=
  refines_read_test h hb (fun gathered _ passes =>
    if passes then .done (.boolean true) else .more gathered) _ ()

/-- So does looking for an item that does not pass. -/
theorem refines_everyItem : (everyItem eager binder).Refines (everyItem lazy binder') :=
  refines_read_test h hb (fun gathered _ passes =>
    if passes then .more gathered else .done (.boolean false)) _ ()

/-- So does finding the first item that passes. -/
theorem refines_firstItem : (firstItem eager binder).Refines (firstItem lazy binder') :=
  refines_read_test h hb (fun gathered value passes =>
    if passes then .done value else .more gathered) _ ()

end quantifiers

/-! ## Calls of query objects -/

/-- What is called is the same query object. -/
theorem refines_queryRef {object object' : Eval Value} (h : object.Refines object') :
    (queryRef object).Refines (queryRef object') := by
  refine Eval.refines_bind h fun value => ?_
  split
  · exact Eval.refines_pure _
  · exact Eval.refines_throw _

/-- What a streaming query object answers with is made of what it is given. -/
theorem makes_through {name : String} {opening : Inquiry (Except QueryError Unit)} {most : Nat}
    {pull : Exchange → Inquiry (Option Item)}
    (hq : ctx.queries.sequence name = .streaming opening most pull) (object : Eval Value)
    (target : Option Meaning) (width : Nat) :
    Source.Makes (querySource ctx object target) (callInput target) width pull
      (.through name width) :=
  advance_through_of_streaming hq object target width

section query

variable {m m' : Meaning} (hm : Meaning.Refines queries m m') (name : String)

include hm

/-- Testing a candidate that is the same comes to the same. -/
theorem refines_callMatching :
    (callMatching ctx name (some m)).Refines (callMatching ctx name (some m')) :=
  Eval.refines_bind hm.value fun _ => Eval.refines_report _ _

variable (hqueries : ctx.queries.AnswersByItems) {object object' : Eval Value}

include hqueries

/-- A query object that is given the same items opens a sequence of the same answers: a list that is
at hand, or items that are passed on as they are pulled. -/
theorem opensLike_callSequence :
    Source.OpensLike (querySource ctx object (some m)) (callSequence ctx name (some m))
      (querySource ctx object' (some m')) (callSequence ctx name (some m')) := by
  refine hm.source.opensLike fun items s cursor s₁ values s' hnext hbrings => ?_
  unfold performOn at hnext ⊢
  rcases hq : ctx.queries.sequence name with perform | ⟨opening, width, pull⟩
  · -- the answer is at hand, whenever it was asked for
    simp only [hq] at hnext ⊢
    obtain ⟨answer, s₂, hanswer, hpure⟩ := hnext.bind
    obtain ⟨rfl, rfl⟩ := Eval.ends_pure_iff.mp hpure
    obtain ⟨rfl, rfl⟩ := hbrings.eq_of_values fun _ => rfl
    obtain ⟨reads, hspends, hreads⟩ := Source.serves_handOver hqueries hq
      hm.source.advance hm.source.descends hanswer
    refine ⟨reads, hspends, fun hshares hdelivers => ?_⟩
    refine (hreads hshares hdelivers).bind id fun b t _ hb => ?_
    subst hb
    exact Eval.settles_pure fun t _ => Source.delivers_values (fun _ => rfl) _ t _
  · simp only [hq] at hnext ⊢
    obtain ⟨⟨opened, exchange, inner⟩, s₂, hconsulted, hopens⟩ := hnext.bind
    obtain ⟨hopened, rfl⟩ := Eval.ends_ofAction_iff.mp hconsulted
    obtain ⟨_, s₃, ⟨trace, hreport⟩, hpure⟩ := hopens.bind
    cases hreport
    obtain ⟨rfl, rfl⟩ := Eval.ends_pure_iff.mp hpure
    obtain ⟨reads, hspends, hreads⟩ := (makes_through hq object (some m) width).serves
      (makes_through hq object' (some m') width) hm.source.advance hm.source.descends opening
      hopened hbrings
    refine ⟨reads, hspends, fun {owns whole t cursor} hshares hdelivers => ?_⟩
    have hconsults := Eval.settles_ofAction (hreads hshares hdelivers)
    refine hconsults.bind id fun ⟨_, exchange, input⟩ t _ ⟨hanswer, hmakes⟩ => ?_
    subst hanswer
    have hreported : (Eval.report [] (.ok ())).Settles whole t fun _ u => t.Within whole u :=
      Eval.settles_report [] fun u hu => hu
    refine hreported.bind id fun _ u _ hu => ?_
    exact Eval.settles_pure fun v hv => hmakes.within (hu.trans hv)

/-- The answers of a query object are brought and delivered. -/
theorem deliveredBy_querySource (h : object.Refines object') :
    (querySource ctx object (some m)).DeliveredBy (querySource ctx object' (some m')) where
  opens := by
    refine Source.opensLike_bind (refines_queryRef h) fun ref => ?_
    rcases ref with name | name
    · refine Source.opensLike_bind (refines_callMatching hm name) fun value => ?_
      intro s cursor s₁ values s' hpure hbrings
      obtain ⟨rfl, rfl⟩ := Eval.ends_pure_iff.mp hpure
      obtain ⟨rfl, rfl⟩ := hbrings.eq_of_values fun _ => rfl
      exact ⟨false, .nothing _,
        Eval.settles_pure fun t _ => Source.delivers_values (fun _ => rfl) false t _⟩
    · exact opensLike_callSequence hm name hqueries
  left := by
    have hdescends := Source.descends_of_advance_eq_read hm.source.advance
    exact descends_querySource ctx object (by rintro _ ⟨⟩; exact hdescends)
  right := descends_querySource ctx object' (by rintro _ ⟨⟩; exact hm.source.descends)

/-- They refine one another as values. -/
theorem refines_queryValue (h : object.Refines object') :
    (queryValue ctx object (some m)).Refines (queryValue ctx object' (some m')) := by
  refine Eval.refines_bind (refines_queryRef h) fun ref => ?_
  rcases ref with name | name
  · exact refines_callMatching hm name
  · have hdelivered := deliveredBy_querySource hm hqueries h
    have hopens : Source.OpensLike
        (querySource ctx object (some m)) (callSequence ctx name (some m))
        (querySource ctx object' (some m')) (callSequence ctx name (some m')) :=
      opensLike_callSequence hm name hqueries
    have hdrain := hopens.refines_drain hdelivered.left hdelivered.right
    have hlist := Eval.refines_map Value.list hdrain
    rw [map_eq_pure_bind, map_eq_pure_bind, bind_assoc, bind_assoc] at hlist
    exact hlist

end query

end Operator

/-! ## Meanings -/

namespace Meaning

variable {queries : Registry}

/-- Meanings of values that refine one another do so. -/
theorem refines_ofValue {x x' : Eval Value} (h : x.Refines x') :
    Meaning.Refines queries (ofValue x).materialized (ofValue x') :=
  ⟨h, (Source.deliveredBy_ofValue h).materialized, .none, .none⟩

/-- So do meanings of sequences that are brought and delivered. -/
theorem refines_ofSource {outer outer' : Source} (h : outer.DeliveredBy outer') :
    Meaning.Refines queries (ofSource outer).materialized (ofSource outer') :=
  ⟨Eval.refines_map _ h.collect, h.materialized, .none, .none⟩

/-- The candidate at hand, or the working set, refines itself. -/
theorem refines_atHand : Meaning.Refines queries atHand.materialized atHand :=
  ⟨Eval.refines_resolve _, Source.deliveredBy_everything.materialized, .none, .none⟩

/-- So does a variable. -/
theorem refines_ofVar (name : String) :
    Meaning.Refines queries (ofVar name).materialized (ofVar name) := by
  unfold ofVar
  split
  · refine ⟨?_, Source.DeliveredBy.materialized ⟨?_, ?_, ?_⟩, .none, .none⟩
    · refine Eval.refines_bind (Eval.refines_isBound name) fun bound => ?_
      split
      · exact Eval.refines_resolve name
      · exact Eval.refines_bind Source.deliveredBy_everything.collect fun _ => Eval.refines_pure _
    · refine Source.opensLike_bind (Eval.refines_isBound name) fun bound => ?_
      split
      · exact Source.opensLike_ofValue rfl rfl (Eval.refines_resolve name)
      · exact Source.opensLike_takeEverything rfl rfl
    · exact Source.descends_of_advance_eq_read rfl
    · exact Source.descends_of_advance_eq_read rfl
  · exact refines_ofValue (Eval.refines_resolve name)

/-- Lambdas that stand for themselves refine one another if they do. -/
theorem refines_ofLambda {binder binder' : Binder} (h : Binder.Refines queries binder binder') :
    Meaning.Refines queries (ofLambda binder).materialized (ofLambda binder') := by
  have happlied := Eval.refines_bind (Eval.refines_resolve Expr.thisName) h.apply
  exact ⟨happlied, (Source.deliveredBy_ofValue happlied).materialized, .some h, .none⟩

/-! ### Operators -/

/-- Two operands that are values of their own, combined without a step. -/
theorem refines_pair (combine : Value → Value → Eval Value) {a b a' b' : Meaning}
    (ha : Meaning.Refines queries a a') (hb : Meaning.Refines queries b b')
    (hcombine : ∀ left right, (combine left right).Refines (combine left right)) :
    Meaning.Refines queries (ofValue do combine (← a.value) (← b.value)).materialized
      (ofValue do combine (← a'.value) (← b'.value)) := by
  refine refines_ofValue (Eval.refines_bind ha.value fun left => ?_)
  exact Eval.refines_bind hb.value fun right => hcombine left right

/-- A quantifier needs of its second operand only that it is a lambda. -/
theorem refines_quantifier {op : Operator} (hop : op.isQuantifier = true)
    {source source' lambda lambda' : Meaning} (hs : Meaning.Refines queries source source')
    (hl : Option.Rel (Binder.Refines queries) lambda.lambda? lambda'.lambda?) :
    Meaning.Refines queries (ofCall ctx op [source, lambda]).materialized
      (ofCall ctx op [source', lambda']) := by
  cases op
  case «exists» =>
    exact refines_ofValue (Operator.refines_lambdaOperand_bind _ hl fun _ _ hb =>
      Operator.refines_someItem hs.source hb)
  case all =>
    exact refines_ofValue (Operator.refines_lambdaOperand_bind _ hl fun _ _ hb =>
      Operator.refines_everyItem hs.source hb)
  case first =>
    exact refines_ofValue (Operator.refines_lambdaOperand_bind _ hl fun _ _ hb =>
      Operator.refines_firstItem hs.source hb)
  all_goals cases hop

/-- Calls of query objects with a target refine one another. -/
theorem refines_query (hqueries : ctx.queries.AnswersByItems) {object object' m m' : Meaning}
    (h : Meaning.Refines queries object object') (hm : Meaning.Refines queries m m') :
    Meaning.Refines queries (ofCall.query ctx object (some m)).materialized
      (ofCall.query ctx object' (some m')) :=
  ⟨Operator.refines_queryValue hm hqueries h.value,
    (Operator.deliveredBy_querySource hm hqueries h.value).materialized, .none, .none⟩

/-- Operators refine one another if their operands do, where a call has a target. -/
theorem refines_ofCall (hqueries : ctx.queries.AnswersByItems) {op : Operator}
    {operands operands' : List Meaning} (hgiven : op = .query → operands.length ≠ 1)
    (h : List.Forall₂ (Meaning.Refines queries) operands operands') :
    Meaning.Refines queries (ofCall ctx op operands).materialized (ofCall ctx op operands') := by
  rcases hallows : op.arity.allows operands.length with _ | _
  · rw [ofCall_of_not_allows ctx hallows, ofCall_of_not_allows ctx (h.length_eq ▸ hallows),
      ← h.length_eq]
    exact refines_ofValue (Eval.refines_throw _)
  have hall := h
  rcases h with _ | ⟨ha, _ | ⟨hb, _ | ⟨hc, hrest⟩⟩⟩
  · -- no operator does without operands
    cases op <;> cases hallows
  · cases op
    case not =>
      exact refines_ofValue (Eval.refines_bind ha.value fun _ => Eval.refines_pure _)
    case count => exact refines_ofValue (Operator.refines_countItems ha.source)
    case query => exact absurd rfl (hgiven rfl)
    all_goals cases hallows
  · cases op
    case equals | notEquals =>
      exact refines_pair (fun left right => pure _) ha hb fun _ _ => Eval.refines_pure _
    case less | lessOrEqual | greater | greaterOrEqual =>
      exact refines_pair _ ha hb fun left right => Eval.refines_report _ _
    case and => exact refines_ofValue (Eval.refines_map _ (Operator.refines_conjunction hall))
    case or => exact refines_ofValue (Eval.refines_map _ (Operator.refines_disjunction hall))
    case member => exact refines_ofValue (Operator.refines_readProperty _ ha hb)
    case fits => exact refines_pair _ ha hb fun left right => Eval.refines_report _ _
    case translated =>
      exact refines_ofValue (Eval.refines_bind (Operator.refines_readProperty _ ha hb)
        Operator.refines_localize)
    case «exists» | all | first => exact refines_quantifier rfl ha hb.lambda
    case limit =>
      exact refines_ofSource (ha.source.limited (Operator.refines_limitCount hb.value))
    case query => exact refines_query hqueries ha hb
    all_goals cases hallows
  · cases op
    case and => exact refines_ofValue (Eval.refines_map _ (Operator.refines_conjunction hall))
    case or => exact refines_ofValue (Eval.refines_map _ (Operator.refines_disjunction hall))
    all_goals cases hallows

/-! ### Filters -/

/-- The greatest versions behind selections that refine one another are brought and delivered. -/
theorem deliveredBy_selectionLatest {source source' : Meaning}
    (h : Meaning.Refines queries source source') {binders binders' : List Binder}
    (hb : List.Forall₂ (Binder.Refines queries) binders binders') :
    (ofFilter.latest source binders).DeliveredBy (ofFilter.latest source' binders') := by
  unfold ofFilter.latest
  have hselection := h.selection
  generalize source.selection? = selection, source'.selection? = selection' at hselection ⊢
  cases hselection with
  | some hinner => exact hinner.1.latest (.cons hinner.2 hb)
  | none => exact h.source.latest hb

/-- Filters without a lambda refine one another. -/
theorem refines_ofFilter {kind : FilterKind} {source source' : Meaning}
    (h : Meaning.Refines queries source source') :
    Meaning.Refines queries (ofFilter kind source).materialized (ofFilter kind source') := by
  cases kind
  case latest => exact refines_ofSource (deliveredBy_selectionLatest h .nil)
  case unique => exact refines_ofSource h.source.unique
  all_goals exact refines_ofSource (Source.deliveredBy_ofValue (Eval.refines_throw _))

/-- So do filters with lambdas that refine one another. -/
theorem refines_ofFilterBy (kind : FilterKind) {source source' : Meaning}
    {binder binder' : Binder} (h : Meaning.Refines queries source source')
    (hb : Binder.Refines queries binder binder') :
    Meaning.Refines queries (ofFilterBy kind source binder).materialized
      (ofFilterBy kind source' binder') := by
  cases kind
  case select =>
    have hsifted := h.source.sifted true hb
    exact ⟨Eval.refines_map _ hsifted.collect, hsifted.materialized, .none, .some ⟨h.source, hb⟩⟩
  case reject => exact refines_ofSource (h.source.sifted false hb)
  case collect => exact refines_ofSource (h.source.mapped hb)
  case latest => exact refines_ofSource (deliveredBy_selectionLatest h (.cons hb .nil))
  case unique => exact refines_ofSource h.source.unique

end Meaning

/-! ## Expressions -/

namespace Operator

/-- Completed operands refine one another. -/
theorem refines_complete {queries : Registry} (op : Operator) {target target' : Meaning}
    (ht : Meaning.Refines queries target target') {operands operands' : List Meaning}
    (h : List.Forall₂ (Meaning.Refines queries) operands operands') :
    List.Forall₂ (Meaning.Refines queries) (op.complete target operands)
      (op.complete target' operands') := by
  rcases h with _ | ⟨hobject, _ | hrest⟩
  · cases op <;> exact .nil
  · cases op
    case query => exact .cons hobject (.cons ht .nil)
    all_goals exact .cons hobject .nil
  · cases op <;> exact .cons hobject (.cons ‹_› ‹_›)

/-- A completed call has a target. -/
theorem length_complete_query_ne_one (target : Meaning) (operands : List Meaning) :
    (Operator.query.complete target operands).length ≠ 1 := by
  rcases operands with _ | ⟨_, _ | ⟨_, _⟩⟩ <;> simp [complete]

end Operator

namespace Expr

mutual

/-- What an expression means in eager evaluation refines what it means in lazy evaluation, by
induction over the expression. -/
theorem eager_refines (h : ctx.queries.AnswersByItems) :
    ∀ e : Expr, Meaning.Refines ctx.queries (e.eager ctx) (e.meaning ctx)
  | .literal value => Meaning.refines_ofValue (Eval.refines_pure value)
  | .var name => Meaning.refines_ofVar name
  | .parameter ref => Meaning.refines_ofValue (Eval.refines_parameter ctx ref)
  | .lambda binder body => by
    have hb : Binder.Refines ctx.queries ⟨binder, (eager ctx body).value⟩
        ⟨binder, (meaning ctx body).value⟩ :=
      ⟨rfl, (eager_refines h body).value, (body.eager_obeys _).value, body.value_obeys _⟩
    exact Meaning.refines_ofLambda hb
  | .call op operands => by
    have hoperands := op.refines_complete Meaning.refines_atHand (eagers_refine h operands)
    rw [meaning, ← Meaning.ofCall_complete]
    refine Meaning.refines_ofCall h ?_ hoperands
    rintro rfl
    exact Operator.length_complete_query_ne_one _ _
  | .filter kind source => Meaning.refines_ofFilter (eager_refines h source)
  | .filterBy kind source binder body => by
    have hb : Binder.Refines ctx.queries ⟨binder, (eager ctx body).value⟩
        ⟨binder, (meaning ctx body).value⟩ :=
      ⟨rfl, (eager_refines h body).value, (body.eager_obeys _).value, body.value_obeys _⟩
    exact Meaning.refines_ofFilterBy kind (eager_refines h source) hb

/-- So do several expressions. -/
theorem eagers_refine (h : ctx.queries.AnswersByItems) : ∀ es : List Expr,
    List.Forall₂ (Meaning.Refines ctx.queries) (eagers ctx es) (meanings ctx es)
  | [] => .nil
  | e :: rest => .cons (eager_refines h e) (eagers_refine h rest)

end

/-- **Laziness is only an optimisation.** Let the answers of query objects depend on the items of
their input only. If eager evaluation of an expression gives a value, lazy evaluation gives the
same value; and if eager evaluation of it as a sequence gives a list, lazy evaluation gives the same
list. This holds in every context and from every state, wherever in the expression the working set
is taken. -/
theorem lazy_eq_of_eager (ctx : Context) (h : ctx.queries.AnswersByItems) (e : Expr)
    (state : State) :
    (∀ value, ((e.eager ctx).value.run state).value = .ok value →
      ((e.value ctx).run state).value = .ok value) ∧
    ∀ values, ((e.eager ctx).source.collect.run state).value = .ok values →
      ((e.source ctx).collect.run state).value = .ok values :=
  ⟨fun _ => (eager_refines h e).value.value_eq,
    fun _ => (eager_refines h e).source.collect.value_eq⟩

/-- A lambda takes the working set while the target of a call is read, and the answer is the same
as if the target had been at hand. -/
theorem lazy_eq_of_eager_query_select :
    let never : MatchQuery := .ofTest [] (fun _ => ⟨.ok false, []⟩) []
    let all : SequenceQuery := .collecting fun input => ⟨input.items.mapM id, .spent, []⟩
    let ctx : Context := ⟨.none, none, ⟨fun _ => never, fun _ => all⟩⟩
    let both : Expr := .call .equals [.call .count [.var everythingName], .literal (.integer 2)]
    let e : Expr := .call .query [.literal (.query (.sequence "all")),
      .filterBy .select (.literal (.list [.integer 1])) "x" both]
    let state : State := ⟨[], .available (.ofItems [.ok (.integer 7), .ok (.integer 8)])⟩
    ctx.queries.AnswersByItems ∧
      ((e.value ctx).run state).value = .ok (.list [.integer 1]) ∧
        ((e.source ctx).collect.run state).value = .ok [.integer 1] := by
  intro never all ctx both e state
  have hanswers : ctx.queries.AnswersByItems := by
    rintro name perform ⟨⟩ tape tape' hitems
    exact congrArg (List.mapM id) hitems
  obtain ⟨hvalue, hvalues⟩ := lazy_eq_of_eager ctx hanswers e state
  exact ⟨hanswers, hvalue _ rfl, hvalues _ rfl⟩

/-- A query object that skips an item before it opens, and hands each other one on twice. -/
example :
    let doubling : SequenceQuery :=
      .streaming ⟨fun given => if given.isEmpty then .ask [] else .answer [] (.ok ()),
          fun _ => ([], .ok ())⟩ 2 fun exchange =>
        if exchange.handed % 2 = 1 then
          ⟨fun _ => .answer [] exchange.given.head?, fun _ => ([], exchange.given.head?)⟩
        else ⟨fun given => given.head?.elim (.ask []) fun item => .answer [] (some item),
          fun _ => ([], none)⟩
    let ctx : Context := ⟨.none, none, ⟨fun _ => .ofTest [] (fun _ => ⟨.ok false, []⟩) [],
      fun _ => doubling⟩⟩
    let e : Expr := .call .query [.literal (.query (.sequence "twice"))]
    let state : State :=
      ⟨[], .available (.ofItems [.ok (.integer 7), .ok (.integer 8), .ok (.integer 9)])⟩
    let values : List Value := [.integer 8, .integer 8, .integer 9, .integer 9]
    ((e.eager ctx).value.run state).value = .ok (.list values) ∧
      ((e.source ctx).collect.run state).value = .ok values := by
  constructor <;> rfl

/-- Eager evaluation can fail where lazy evaluation does not, at an item that nothing asks for. -/
example :
    let failure : QueryError := .evaluation "source" 0 (.reported "unreadable")
    let ctx : Context := ⟨.none, none, ⟨fun _ => .ofTest [] (fun _ => ⟨.ok false, []⟩) [],
      fun _ => .passing [] some⟩⟩
    let e : Expr := .call .limit [.var everythingName, .literal (.integer 1)]
    let state : State := ⟨[], .available (.ofItems [.ok (.integer 7), .error failure])⟩
    ((e.eager ctx).value.run state).value = .error failure ∧
      ((e.value ctx).run state).value = .ok (.list [.integer 7]) := by
  constructor <;> rfl

end Expr

end RecordQuery
