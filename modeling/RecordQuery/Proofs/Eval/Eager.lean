import RecordQuery.Proofs.Eval.Discipline.Meanings

/-!
# Eager evaluation

Eager evaluation is evaluation in which every sequence that a node is given is read to its end as
soon as it is opened (`Source.materialized`), before the node looks at any item: its operands, the
source of a filter, the target of a call, and the working set. Opening then fails with the first
failure among the items. The nodes themselves do what they always do.

A call without a target reads the candidate at hand or the working set in its place. In eager
evaluation that is one more operand (`Operator.complete`), which changes nothing for the call
(`Meaning.ofCall_complete`) and lets its sequence be read to the end like any other.

Eager evaluation takes the same steps as lazy evaluation, only at other times, and so it obeys every
discipline that holds of these steps (`Expr.eager_obeys`).
-/

namespace RecordQuery

/-! ## Materialized sequences -/

/-- The sequence, read to its end as soon as it is opened. -/
def Source.materialized (source : Source) : Source :=
  .ofValue (.list <$> source.collect)

namespace Meaning

/-- The meaning whose sequence is read to its end as soon as it is opened. -/
def materialized (m : Meaning) : Meaning :=
  { m with source := m.source.materialized }

/-- What a call without a target reads: the candidate at hand as a value, and the working set as a
sequence. -/
def atHand : Meaning :=
  ⟨Eval.resolve Expr.thisName, .everything, none, none⟩

end Meaning

/-- The operands of an operator, with a target for a call that has none. -/
def Operator.complete (target : Meaning) : Operator → List Meaning → List Meaning
  | .query, [object] => [object, target]
  | _, operands => operands

/-- A call without a target is a call for what is at hand. -/
theorem Meaning.ofCall_complete (ctx : Context) (op : Operator) (operands : List Meaning) :
    ofCall ctx op (op.complete atHand operands) = ofCall ctx op operands := by
  unfold Operator.complete
  split
  · rfl
  · rfl

/-! ## Expressions -/

namespace Expr

mutual

/-- What an expression means in eager evaluation. -/
def eager (ctx : Context) : Expr → Meaning
  | .literal value => (Meaning.ofValue (pure value)).materialized
  | .var name => (Meaning.ofVar name).materialized
  | .parameter ref => (Meaning.ofValue (Eval.parameter ctx ref)).materialized
  | .lambda binder body => (Meaning.ofLambda ⟨binder, (eager ctx body).value⟩).materialized
  | .call op operands =>
    (Meaning.ofCall ctx op
      (op.complete Meaning.atHand.materialized (eagers ctx operands))).materialized
  | .filter kind source => (Meaning.ofFilter kind (eager ctx source)).materialized
  | .filterBy kind source binder body =>
    (Meaning.ofFilterBy kind (eager ctx source) ⟨binder, (eager ctx body).value⟩).materialized

/-- What several expressions mean in eager evaluation. -/
def eagers (ctx : Context) : List Expr → List Meaning
  | [] => []
  | e :: rest => eager ctx e :: eagers ctx rest

end

end Expr

/-! ## Disciplines -/

variable {ctx : Context} {d : Discipline ctx.queries}

/-- A sequence that is read to its end when it is opened is disciplined if the sequence is. -/
theorem Source.Obeys.materialized {source : Source} (h : Source.Obeys d source) :
    Source.Obeys d source.materialized :=
  obeys_ofValue (Eval.obeys_map _ h.collect)

namespace Meaning

/-- So is the meaning with such a sequence. -/
theorem Obeys.materialized {m : Meaning} (h : Meaning.Obeys d m) : Meaning.Obeys d m.materialized :=
  ⟨h.value, h.source.materialized, h.lambda, h.selection⟩

/-- The candidate at hand and the working set are disciplined. -/
theorem obeys_atHand : Meaning.Obeys d atHand :=
  ⟨Eval.obeys_resolve _, Source.obeys_everything, by rintro _ ⟨⟩, by rintro _ ⟨⟩⟩

end Meaning

/-- Completed operands are disciplined if the operands are. -/
theorem Operator.obeys_complete (op : Operator) {target : Meaning} (ht : Meaning.Obeys d target)
    {operands : List Meaning} (h : ∀ operand ∈ operands, Meaning.Obeys d operand) :
    ∀ operand ∈ op.complete target operands, Meaning.Obeys d operand := by
  unfold complete
  split
  · have hobject := h _ List.mem_cons_self
    exact List.forall_mem_cons.mpr ⟨hobject, List.forall_mem_singleton.mpr ht⟩
  · exact h

namespace Expr

mutual

/-- Eager evaluation obeys every discipline, by induction over the expression. -/
theorem eager_obeys (d : Discipline ctx.queries) : ∀ e : Expr, Meaning.Obeys d (e.eager ctx)
  | .literal value => (Meaning.obeys_ofValue (Eval.obeys_pure value)).materialized
  | .var name => (Meaning.obeys_ofVar name).materialized
  | .parameter ref => (Meaning.obeys_ofValue (Eval.obeys_parameter ctx ref)).materialized
  | .lambda binder body =>
    have hb : Binder.Obeys d ⟨binder, (eager ctx body).value⟩ := (eager_obeys d body).value
    (Meaning.obeys_ofLambda hb).materialized
  | .call op operands =>
    have hoperands := op.obeys_complete Meaning.obeys_atHand.materialized (eagers_obey d operands)
    (Meaning.obeys_ofCall ctx.looksWithin_any op hoperands).materialized
  | .filter kind source => (Meaning.obeys_ofFilter kind (eager_obeys d source)).materialized
  | .filterBy kind source binder body =>
    have hb : Binder.Obeys d ⟨binder, (eager ctx body).value⟩ := (eager_obeys d body).value
    (Meaning.obeys_ofFilterBy kind (eager_obeys d source) hb).materialized

/-- So are several expressions. -/
theorem eagers_obey (d : Discipline ctx.queries) :
    ∀ es : List Expr, ∀ m ∈ eagers ctx es, Meaning.Obeys d m
  | [] => List.forall_mem_nil _
  | e :: rest => List.forall_mem_cons.mpr ⟨eager_obeys d e, eagers_obey d rest⟩

end

end Expr

end RecordQuery
