import RecordQuery.Proofs.Eval.Discipline.Sources

/-!
# Disciplined expressions

Each operator, filter and call of a query object is disciplined if its operands are. By induction
over the tree, so is every expression, whatever its parameters and translations
(`Expr.meaning_obeys`). A discipline that holds of some lookups only is kept in contexts that look
nothing else up (`Expr.meaning_obeys_of`).
-/

namespace RecordQuery

variable {ctx : Context} {Allowed : String → String → Prop} {d : Discipline ctx.queries Allowed}

/-! ## Operators -/

namespace Operator

/-- A conjunction is disciplined if its operands are. -/
theorem obeys_conjunction {operands : List Meaning}
    (h : ∀ operand ∈ operands, Meaning.Obeys d operand) : Eval.Obeys d (conjunction operands) := by
  induction operands with
  | nil => exact Eval.obeys_pure _
  | cons operand rest ih =>
      refine Eval.obeys_bind (h operand List.mem_cons_self).value fun value => ?_
      split
      · exact ih fun operand ho => h operand (List.mem_cons_of_mem _ ho)
      · exact Eval.obeys_pure _

/-- So is a disjunction. -/
theorem obeys_disjunction {operands : List Meaning}
    (h : ∀ operand ∈ operands, Meaning.Obeys d operand) : Eval.Obeys d (disjunction operands) := by
  induction operands with
  | nil => exact Eval.obeys_pure _
  | cons operand rest ih =>
      refine Eval.obeys_bind (h operand List.mem_cons_self).value fun value => ?_
      split
      · exact Eval.obeys_pure _
      · exact ih fun operand ho => h operand (List.mem_cons_of_mem _ ho)

/-- So is reading a property. -/
theorem obeys_readProperty (op : Operator) {target name : Meaning} (ht : Meaning.Obeys d target)
    (hn : Meaning.Obeys d name) : Eval.Obeys d (op.readProperty target name) := by
  refine Eval.obeys_bind ht.value fun target => Eval.obeys_bind hn.value fun name => ?_
  split
  · exact Eval.obeys_report_nil _
  · exact Eval.obeys_throw _

/-- Translating a property is disciplined if the context looks up only what is allowed. -/
theorem obeys_localize (hctx : ctx.LooksWithin Allowed) (raw : Value) :
    Eval.Obeys d (localize ctx raw) := by
  unfold localize
  split
  · rename_i key translations _ htranslations
    refine Eval.obeys_bind (Eval.obeys_translate (hctx _ htranslations key)) fun text => ?_
    rcases text with _ | text <;> exact Eval.obeys_pure _
  · exact Eval.obeys_pure _

/-- What an operator does with its lambda, where the operand is one; else it fails. -/
theorem obeys_lambdaOperand_bind {α : Type} (op : Operator) {operand : Meaning}
    {f : Binder → Eval α} (h : ∀ binder ∈ operand.lambda?, Eval.Obeys d (f binder)) :
    Eval.Obeys d (op.lambdaOperand operand >>= f) := by
  unfold lambdaOperand
  rcases hb : operand.lambda? with _ | binder
  · intro state
    rw [Eval.run_bind_error rfl]
    exact d.refl state
  · exact h binder hb

variable {source : Source} (h : Source.Obeys d source)

include h

/-- Looking for an item that passes is disciplined. -/
theorem obeys_someItem {binder : Binder} (hb : Binder.Obeys d binder) :
    Eval.Obeys d (someItem source binder) := by
  refine h.read (fun _ value => Eval.obeys_bind (hb.test value) fun passes => ?_) _
  split <;> exact Eval.obeys_pure _

/-- So is looking for an item that does not pass. -/
theorem obeys_everyItem {binder : Binder} (hb : Binder.Obeys d binder) :
    Eval.Obeys d (everyItem source binder) := by
  refine h.read (fun _ value => Eval.obeys_bind (hb.test value) fun passes => ?_) _
  split <;> exact Eval.obeys_pure _

/-- So is finding the first item that passes. -/
theorem obeys_firstItem {binder : Binder} (hb : Binder.Obeys d binder) :
    Eval.Obeys d (firstItem source binder) := by
  refine h.read (fun _ value => Eval.obeys_bind (hb.test value) fun passes => ?_) _
  split <;> exact Eval.obeys_pure _

/-- So is counting. -/
theorem obeys_countItems : Eval.Obeys d (countItems source) :=
  h.read (fun _ _ => Eval.obeys_pure _) _

omit h

/-- So is the number of a limit. -/
theorem obeys_limitCount {count : Eval Value} (hc : Eval.Obeys d count) :
    Eval.Obeys d (limitCount count) := by
  refine Eval.obeys_bind hc fun value => ?_
  split
  · split
    · exact Eval.obeys_pure _
    · exact Eval.obeys_throw _
  · exact Eval.obeys_throw _

/-! ## Calls of query objects -/

/-- What is called is found in a disciplined way. -/
theorem obeys_queryRef {object : Eval Value} (h : Eval.Obeys d object) :
    Eval.Obeys d (queryRef object) := by
  refine Eval.obeys_bind h fun value => ?_
  split
  · exact Eval.obeys_pure _
  · exact Eval.obeys_throw _

/-- A pull on the answer of a streaming query object: it is given what it asks for, and its item is
handed on. -/
theorem advance_through_of_streaming {name : String} {opening : Inquiry (Except QueryError Unit)}
    {most : Nat} {pull : Exchange → Inquiry (Option Item)}
    (hq : ctx.queries.sequence name = .streaming opening most pull) (object : Eval Value)
    (target : Option Meaning) (width : Nat) (exchange : Exchange) (input : Cursor) :
    (querySource ctx object target).advance (.through name width exchange input) = (do
      let (item, exchange, input) ← (callInput target).consult (pull exchange) exchange input
      return ((exchange.handOn width item).1,
        .through name width (exchange.handOn width item).2 input)) := by
  simp only [querySource, hq]

/-- A collecting query object leaves nothing to pull on. -/
theorem advance_through_of_collecting {name : String}
    {perform : Tape → Reading (List Value)} (hq : ctx.queries.sequence name = .collecting perform)
    (object : Eval Value) (target : Option Meaning) (width : Nat) (exchange : Exchange)
    (input : Cursor) :
    (querySource ctx object target).advance (.through name width exchange input) =
      pure (none, .through name width exchange input) := by
  simp only [querySource, hq]

variable {target : Option Meaning} (ht : ∀ m ∈ target, Meaning.Obeys d m)

include ht

/-- Testing a candidate is a step of the query object, behind those of its operand. -/
theorem obeys_callMatching (name : String) : Eval.Obeys d (callMatching ctx name target) := by
  let test := (ctx.queries.matching name).test
  have htest : ∀ candidate, Eval.Obeys d
      (Eval.report (test candidate).trace ((test candidate).result.map Value.boolean)) := by
    intro candidate
    exact Eval.obeys_report (fun state => d.test state name candidate) _
  rcases target with _ | m
  · exact Eval.obeys_bind (Eval.obeys_resolve _) htest
  · exact Eval.obeys_bind (ht m rfl).value htest

/-- What a query object is given is disciplined. -/
theorem obeys_callInput : Source.Obeys d (callInput target) := by
  rcases target with _ | m
  · exact Source.obeys_everything
  · exact (ht m rfl).source

/-- What a query object makes of a sequence is disciplined: it is a step of the object, or some
steps and the pulls between them. -/
theorem obeys_performOn (name : String) (input : Cursor) :
    Eval.Obeys d (performOn ctx name target input) := by
  unfold performOn
  split
  · rename_i perform hp
    exact Eval.obeys_bind ((obeys_callInput ht).handOver hp input) fun _ => Eval.obeys_pure _
  · rename_i opening width pull hp
    have hsteps : ∀ {trace}, opening.Leaves trace → ∀ state, d.Holds state trace state :=
      fun hleaves => d.streaming name (hp ▸ .opening hleaves)
    have hopened := (obeys_callInput ht).consult hsteps .initial input
    refine Eval.obeys_bind (Eval.obeys_ofAction hopened) fun ⟨opened, exchange, input⟩ => ?_
    exact Eval.obeys_bind (Eval.obeys_report_nil opened) fun _ => Eval.obeys_pure _

/-- So is giving it its sequence. -/
theorem obeys_callSequence (name : String) : Eval.Obeys d (callSequence ctx name target) :=
  Eval.obeys_bind (obeys_callInput ht).start (obeys_performOn ht name)

/-- The answer of a query object is disciplined as a sequence. -/
theorem obeys_querySource {object : Eval Value} (h : Eval.Obeys d object) :
    Source.Obeys d (querySource ctx object target) where
  start := by
    refine Eval.obeys_bind (obeys_queryRef h) fun ref => ?_
    rcases ref with name | name
    · exact Eval.obeys_bind (obeys_callMatching ht name) fun _ => Eval.obeys_pure _
    · exact obeys_callSequence ht name
  advance cursor := by
    rcases cursor with _ | _ | _ | _ | _ | ⟨name, width, exchange, input⟩
    case through =>
      rcases hq : ctx.queries.sequence name with perform | ⟨opening, most, pull⟩
      · rw [advance_through_of_collecting hq]
        exact Action.obeys_pure _
      · rw [advance_through_of_streaming hq]
        have hsteps : ∀ {trace}, (pull exchange).Leaves trace →
            ∀ state, d.Holds state trace state := fun hleaves => d.streaming name (hq ▸ .pull hleaves)
        exact Action.obeys_bind ((obeys_callInput ht).consult hsteps exchange input) fun _ =>
          Action.obeys_pure _
    all_goals exact Cursor.obeys_read _

/-- So it is as a value. -/
theorem obeys_queryValue {object : Eval Value} (h : Eval.Obeys d object) :
    Eval.Obeys d (queryValue ctx object target) := by
  refine Eval.obeys_bind (obeys_queryRef h) fun ref => ?_
  rcases ref with name | name
  · exact obeys_callMatching ht name
  · refine Eval.obeys_bind (obeys_callSequence ht name) fun cursor => ?_
    refine Eval.obeys_bind ((obeys_querySource ht h).drain cursor) fun values => ?_
    exact Eval.obeys_pure _

end Operator

/-! ## Meanings -/

namespace Meaning

/-- The meaning of a disciplined value is disciplined. -/
theorem obeys_ofValue {value : Eval Value} (h : Eval.Obeys d value) :
    Meaning.Obeys d (ofValue value) where
  value := h
  source := Source.obeys_ofValue h
  lambda := by rintro _ ⟨⟩
  selection := by rintro _ ⟨⟩

/-- So is that of a disciplined sequence. -/
theorem obeys_ofSource {source : Source} (h : Source.Obeys d source) :
    Meaning.Obeys d (ofSource source) where
  value := Eval.obeys_map _ h.collect
  source := h
  lambda := by rintro _ ⟨⟩
  selection := by rintro _ ⟨⟩

/-- So is that of a variable. -/
theorem obeys_ofVar (name : String) : Meaning.Obeys d (ofVar name) := by
  unfold ofVar
  split
  · refine ⟨?_, ⟨?_, Cursor.obeys_read⟩, by rintro _ ⟨⟩, by rintro _ ⟨⟩⟩
    · refine Eval.obeys_bind (Eval.obeys_isBound name) fun bound => ?_
      split
      · exact Eval.obeys_resolve name
      · exact Eval.obeys_bind Source.obeys_everything.collect fun _ => Eval.obeys_pure _
    · refine Eval.obeys_bind (Eval.obeys_isBound name) fun bound => ?_
      split
      · exact (Source.obeys_ofValue (Eval.obeys_resolve name)).start
      · exact Source.obeys_everything.start
  · exact obeys_ofValue (Eval.obeys_resolve name)

/-- So is that of a disciplined lambda. -/
theorem obeys_ofLambda {binder : Binder} (h : Binder.Obeys d binder) :
    Meaning.Obeys d (ofLambda binder) where
  value := Eval.obeys_bind (Eval.obeys_resolve _) h.apply
  source := Source.obeys_ofValue (Eval.obeys_bind (Eval.obeys_resolve _) h.apply)
  lambda := by rintro _ ⟨⟩; exact h
  selection := by rintro _ ⟨⟩

/-- So is that of a comparison by order. -/
theorem obeys_ordering (op : Operator) {a b : Meaning} (ha : Meaning.Obeys d a)
    (hb : Meaning.Obeys d b) : Meaning.Obeys d (ofCall.ordering op a b) := by
  refine obeys_ofValue (Eval.obeys_bind ha.value fun left => ?_)
  refine Eval.obeys_bind hb.value fun right => ?_
  exact Eval.obeys_report_nil _

/-- So is that of a call of a query object. -/
theorem obeys_query {object : Meaning} {target : Option Meaning} (h : Meaning.Obeys d object)
    (ht : ∀ m ∈ target, Meaning.Obeys d m) : Meaning.Obeys d (ofCall.query ctx object target) where
  value := Operator.obeys_queryValue ht h.value
  source := Operator.obeys_querySource ht h.value
  lambda := by rintro _ ⟨⟩
  selection := by rintro _ ⟨⟩

/-- An operator with a number of operands that it does not take fails before any is evaluated. -/
theorem ofCall_of_not_allows (ctx : Context) {op : Operator} {operands : List Meaning}
    (h : op.arity.allows operands.length = false) :
    ofCall ctx op operands = ofValue (throw (op.arityError operands.length)) := by
  unfold ofCall
  split
  case h_7 | h_8 => simp [Operator.arity, Arity.allows] at h
  case h_20 => rfl
  all_goals cases h

/-- The operands of a binary operator. -/
theorem obeys_pair {a b : Meaning} (h : ∀ operand ∈ [a, b], Meaning.Obeys d operand) :
    Meaning.Obeys d a ∧ Meaning.Obeys d b :=
  ⟨h a List.mem_cons_self, h b (List.mem_cons_of_mem _ List.mem_cons_self)⟩

/-- Every call is disciplined if its operands are. -/
theorem obeys_ofCall (hctx : ctx.LooksWithin Allowed) (op : Operator) {operands : List Meaning}
    (h : ∀ operand ∈ operands, Meaning.Obeys d operand) :
    Meaning.Obeys d (ofCall ctx op operands) := by
  unfold ofCall
  split
  case h_1 | h_2 =>
    obtain ⟨ha, hb⟩ := obeys_pair h
    refine obeys_ofValue (Eval.obeys_bind ha.value fun left => ?_)
    refine Eval.obeys_bind hb.value fun right => ?_
    exact Eval.obeys_pure _
  case h_3 | h_4 | h_5 | h_6 =>
    obtain ⟨ha, hb⟩ := obeys_pair h
    exact obeys_ordering _ ha hb
  case h_7 => exact obeys_ofValue (Eval.obeys_map _ (Operator.obeys_conjunction h))
  case h_8 => exact obeys_ofValue (Eval.obeys_map _ (Operator.obeys_disjunction h))
  case h_9 a =>
    have ha := h a List.mem_cons_self
    refine obeys_ofValue (Eval.obeys_bind ha.value fun operand => ?_)
    exact Eval.obeys_pure _
  case h_10 =>
    obtain ⟨ht, hn⟩ := obeys_pair h
    exact obeys_ofValue (Operator.obeys_readProperty _ ht hn)
  case h_11 =>
    obtain ⟨ha, hb⟩ := obeys_pair h
    refine obeys_ofValue (Eval.obeys_bind ha.value fun left => ?_)
    refine Eval.obeys_bind hb.value fun right => ?_
    exact Eval.obeys_report_nil _
  case h_12 =>
    obtain ⟨ht, hn⟩ := obeys_pair h
    have hread := Operator.obeys_readProperty .translated ht hn
    refine obeys_ofValue (Eval.obeys_bind hread fun raw => ?_)
    exact Operator.obeys_localize hctx raw
  case h_13 =>
    obtain ⟨hs, hl⟩ := obeys_pair h
    refine obeys_ofValue (Operator.obeys_lambdaOperand_bind _ fun binder hb => ?_)
    exact Operator.obeys_someItem hs.source (hl.lambda binder hb)
  case h_14 =>
    obtain ⟨hs, hl⟩ := obeys_pair h
    refine obeys_ofValue (Operator.obeys_lambdaOperand_bind _ fun binder hb => ?_)
    exact Operator.obeys_everyItem hs.source (hl.lambda binder hb)
  case h_15 =>
    obtain ⟨hs, hl⟩ := obeys_pair h
    refine obeys_ofValue (Operator.obeys_lambdaOperand_bind _ fun binder hb => ?_)
    exact Operator.obeys_firstItem hs.source (hl.lambda binder hb)
  case h_16 source =>
    have hs := h source List.mem_cons_self
    exact obeys_ofValue (Operator.obeys_countItems hs.source)
  case h_17 =>
    obtain ⟨hs, hc⟩ := obeys_pair h
    have hcount := Operator.obeys_limitCount hc.value
    exact obeys_ofSource (hs.source.limited hcount)
  case h_18 object => exact obeys_query (h object List.mem_cons_self) (by rintro _ ⟨⟩)
  case h_19 =>
    obtain ⟨ho, ht⟩ := obeys_pair h
    exact obeys_query ho (by rintro _ ⟨⟩; exact ht)
  case h_20 => exact obeys_ofValue (Eval.obeys_throw _)

/-- The greatest versions behind a selection are disciplined. -/
theorem obeys_selectionLatest {source : Meaning} (h : Meaning.Obeys d source)
    {binders : List Binder} (hb : ∀ binder ∈ binders, Binder.Obeys d binder) :
    Source.Obeys d (ofFilter.latest source binders) := by
  unfold ofFilter.latest
  split
  · rename_i inner binder hs
    obtain ⟨hinner, hbinder⟩ := h.selection _ hs
    exact hinner.latest (List.forall_mem_cons.mpr ⟨hbinder, hb⟩)
  · exact h.source.latest hb

/-- Filters without a lambda are disciplined. -/
theorem obeys_ofFilter (kind : FilterKind) {source : Meaning} (h : Meaning.Obeys d source) :
    Meaning.Obeys d (ofFilter kind source) := by
  unfold ofFilter
  split
  · exact obeys_ofSource (obeys_selectionLatest h (List.forall_mem_nil _))
  · exact obeys_ofSource h.source.unique
  · exact obeys_ofSource (Source.obeys_ofValue (Eval.obeys_throw _))

/-- So are filters with a disciplined lambda. -/
theorem obeys_ofFilterBy (kind : FilterKind) {source : Meaning} {binder : Binder}
    (h : Meaning.Obeys d source) (hb : Binder.Obeys d binder) :
    Meaning.Obeys d (ofFilterBy kind source binder) := by
  rcases kind
  case select =>
    have hsifted := obeys_ofSource (h.source.sifted true hb)
    exact ⟨hsifted.value, hsifted.source, hsifted.lambda, by rintro _ ⟨⟩; exact ⟨h.source, hb⟩⟩
  case reject => exact obeys_ofSource (h.source.sifted false hb)
  case collect => exact obeys_ofSource (h.source.mapped hb)
  case latest =>
    have hbinders : ∀ own ∈ [binder], Binder.Obeys d own := by
      intro own hown
      obtain rfl := List.mem_singleton.mp hown
      exact hb
    exact obeys_ofSource (obeys_selectionLatest h hbinders)
  case unique => exact obeys_ofSource h.source.unique

end Meaning

/-! ## Expressions -/

namespace Expr

mutual

/-- **What holds of every step holds of every run**: the discipline holds of all that an expression
means where no lookup is made but those that it holds of. By induction over the expression. -/
theorem meaning_obeys_of (d : Discipline ctx.queries Allowed) (hctx : ctx.LooksWithin Allowed) :
    ∀ e : Expr, Meaning.Obeys d (e.meaning ctx)
  | .literal value => Meaning.obeys_ofValue (Eval.obeys_pure value)
  | .var name => Meaning.obeys_ofVar name
  | .parameter ref => Meaning.obeys_ofValue (Eval.obeys_parameter ctx ref)
  | .lambda _ body => Meaning.obeys_ofLambda (meaning_obeys_of d hctx body).value
  | .call op operands => Meaning.obeys_ofCall hctx op (meanings_obey_of d hctx operands)
  | .filter kind source => Meaning.obeys_ofFilter kind (meaning_obeys_of d hctx source)
  | .filterBy kind source _ body =>
    Meaning.obeys_ofFilterBy kind (meaning_obeys_of d hctx source)
      (meaning_obeys_of d hctx body).value

/-- So are several expressions. -/
theorem meanings_obey_of (d : Discipline ctx.queries Allowed) (hctx : ctx.LooksWithin Allowed) :
    ∀ es : List Expr, ∀ m ∈ meanings ctx es, Meaning.Obeys d m
  | [] => List.forall_mem_nil _
  | e :: rest =>
    List.forall_mem_cons.mpr ⟨meaning_obeys_of d hctx e, meanings_obey_of d hctx rest⟩

end

variable (d : Discipline ctx.queries) (e : Expr)

/-- A discipline that holds of every lookup holds of all that an expression means. -/
theorem meaning_obeys : Meaning.Obeys d (e.meaning ctx) :=
  meaning_obeys_of d ctx.looksWithin_any e

/-- The value of an expression is disciplined. -/
theorem value_obeys : Eval.Obeys d (e.value ctx) :=
  (meaning_obeys d e).value

/-- So is its sequence. -/
theorem source_obeys : Source.Obeys d (e.source ctx) :=
  (meaning_obeys d e).source

/-- So is its test. -/
theorem isTrue_obeys : Eval.Obeys d (e.isTrue ctx) :=
  Eval.obeys_map _ (value_obeys d e)

end Expr

/-- So is the lambda of an expression. -/
theorem Lambda.meaning_obeys (d : Discipline ctx.queries) (lambda : Lambda) :
    Binder.Obeys d (lambda.meaning ctx) :=
  Expr.value_obeys d lambda.body

/-- So are several lambdas. -/
theorem Lambda.forall_meaning_obeys (d : Discipline ctx.queries) (lambdas : List Lambda) :
    ∀ binder ∈ lambdas.map (Lambda.meaning ctx), Binder.Obeys d binder :=
  List.forall_mem_map.mpr fun lambda _ => lambda.meaning_obeys d

end RecordQuery
