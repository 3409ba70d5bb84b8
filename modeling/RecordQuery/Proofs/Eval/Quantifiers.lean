import RecordQuery.Proofs.Eval.Fusion

/-!
# Quantifiers

A quantifier looks at the items of its source in order: it pulls one, tries it, and stops where the
look decides (`Look.ends`). The three quantifiers are one search (`Source.search`) for a value that
passes, or that does not; they differ in what they make of what is found.

That gives the laws between them. Who tries the negation of a lambda finds what passes the lambda
itself (`Source.search_negated`). To search for a value that passes is to read one item of a
selection (`Source.Descends.collect_limited_one`), although that pulls in a loop of its own.

**Main statement** (`Quantifier.search_laws`): a quantifier makes the looks of its source up to the
first that decides, and no other step; `exists` and `all` are dual; `first` is the item of a
selection that is limited to one.
-/

namespace RecordQuery

variable {α β γ δ : Type} {queries : Registry}

/-! ## Looks -/

/-- What a look at the next item of a source comes to. -/
inductive Look where
  /-- There is no item. -/
  | atEnd
  /-- The item is a failure, or to try it fails. -/
  | failed (e : QueryError)
  /-- The item is a value, which passes a lambda or does not. -/
  | tried (value : Value) (passes : Bool)

namespace Look

/-- Whether a look ends the search for a value that passes, or for one that does not. -/
def ends (wanted : Bool) : Look → Bool
  | .tried _ passes => passes == wanted
  | .atEnd | .failed _ => true

/-- What is found by the last look of a search. -/
def found : Look → Except QueryError (Option Value)
  | .atEnd => .ok none
  | .failed e => .error e
  | .tried value _ => .ok (some value)

end Look

namespace Source

/-- Pulls once, and tries the value that comes. -/
def look (source : Source) (binder : Binder) (cursor : Cursor) : Action (Look × Cursor) := do
  match ← source.advance cursor with
  | (none, cursor) => return (.atEnd, cursor)
  | (some (.error e), cursor) => return (.failed e, cursor)
  | (some (.ok value), cursor) =>
    match ← ExceptT.run (binder.test value) with
    | .ok passes => return (.tried value passes, cursor)
    | .error e => return (.failed e, cursor)

/-- So many looks, and the cursor after them. -/
def looks (source : Source) (binder : Binder) : Nat → Cursor → Action (List Look × Cursor)
  | 0, cursor => pure ([], cursor)
  | count + 1, cursor => do
    let (look, cursor) ← source.look binder cursor
    let (looks, cursor) ← source.looks binder count cursor
    return (look :: looks, cursor)

/-! ## Searching -/

/-- What a search does with a value. -/
def hit (binder : Binder) (wanted : Bool) (_ : Unit) (value : Value) :
    Eval (Progress Unit (Option Value)) := do
  return if (← binder.test value) == wanted then .done (some value) else .more ()

/-- The first value from a cursor on for which the lambda gives what is wanted. -/
def searchFrom (source : Source) (binder : Binder) (wanted : Bool) (cursor : Cursor) :
    Eval (Option Value) :=
  source.readFrom (hit binder wanted) (fun _ => none) cursor ()

/-- The first value for which the lambda gives what is wanted. -/
def search (source : Source) (binder : Binder) (wanted : Bool) : Eval (Option Value) := do
  source.searchFrom binder wanted (← source.start)

/-- A search reads the sequence until there is a hit. -/
theorem search_eq_read (source : Source) (binder : Binder) (wanted : Bool) :
    source.search binder wanted = source.read (hit binder wanted) (fun _ => none) () := rfl

section search

variable {source : Source} {binder : Binder} (wanted : Bool) (cursor : Cursor)
  (h : source.Descends) (hb : Binder.Obeys (State.later queries) binder)

include hb

/-- Trying a value leads to a later state, if the lambda does. -/
theorem advances_hit (gathered : Unit) (value : Value) :
    (hit binder wanted gathered value).Advances :=
  (Eval.obeys_bind (hb.test value) fun _ => Eval.obeys_pure _).advances

include h

/-- **One step of a search**: a look, and searching on unless it decides. -/
theorem Descends.searchFrom_eq : source.searchFrom binder wanted cursor = (do
    let (look, cursor) ← Eval.ofAction (source.look binder cursor)
    if look.ends wanted then Eval.report [] look.found
    else source.searchFrom binder wanted cursor) := by
  apply Eval.ext_run
  intro state
  unfold searchFrom
  rw [h.readFrom_eq (advances_hit wanted hb), look, Eval.ofAction_bind, bind_assoc]
  refine Eval.run_bind_congr fun pulled _ => ?_
  obtain ⟨answer, inner⟩ := pulled
  rcases answer with _ | e | value
  · rfl
  · rfl
  · generalize (Eval.run (Eval.ofAction (source.advance cursor)) state).state = after
    dsimp only
    rw [hit, bind_assoc, Eval.ofAction_bind, bind_assoc, Eval.run_ofAction_bind]
    have hrun : ExceptT.run (binder.test value) after = (binder.test value).run after := rfl
    rw [hrun]
    rcases htest : ((binder.test value).run after).value with e | passes
    · rw [Eval.run_bind_error htest]
      exact congrArg (Outcome.mk _ _) (List.append_nil _).symm
    · rw [Eval.run_bind_ok htest]
      show _ = (Eval.run (if passes == wanted then _ else _) _).after _
      rcases passes == wanted with _ | _
      · rfl
      · rfl

/-- A look that does not decide lowers the bound. -/
theorem Descends.bound_look_lt {state after : State} {look : Look} {inner : Cursor} {trace : Trace}
    (hlook : source.look binder cursor state = ⟨(look, inner), after, trace⟩)
    (hends : look.ends wanted = false) : inner.bound after < cursor.bound state := by
  have hdescends := h cursor state
  rw [Source.look, Action.bind_eq_after] at hlook
  generalize source.advance cursor state = o at hdescends hlook
  obtain ⟨⟨answer, pulled⟩, pulledState, pulledTrace⟩ := o
  rcases answer with _ | e | value
  · cases hlook
    cases hends
  · cases hlook
    cases hends
  · have hlt : pulled.bound pulledState < cursor.bound state := hdescends _ rfl
    have hle := pulled.bound_le_of_later ((hb.test value).advances pulledState)
    have hrun : ExceptT.run (binder.test value) pulledState = (binder.test value).run pulledState :=
      rfl
    dsimp only at hlook
    rw [Action.bind_eq_after, hrun] at hlook
    generalize (binder.test value).run pulledState = o at hle hlook
    obtain ⟨result, later, trace'⟩ := o
    rcases result with e | passes
    · cases hlook
      cases hends
    · cases hlook
      exact Nat.lt_of_le_of_lt hle hlt

/-- **A search makes looks up to the first that decides**, and comes to what that one finds. By
induction on the bound of what is left. -/
theorem Descends.exists_looks (state : State) :
    ∃ (before : List Look) (last : Look) (cursor' : Cursor) (state' : State) (trace : Trace),
      source.looks binder (before.length + 1) cursor state =
          ⟨(before ++ [last], cursor'), state', trace⟩ ∧
        before.any (·.ends wanted) = false ∧ last.ends wanted = true ∧
        (source.searchFrom binder wanted cursor).run state = ⟨last.found, state', trace⟩ := by
  induction hn : cursor.bound state using Nat.strongRecOn generalizing cursor state with
  | ind n ih =>
      rcases hlook : source.look binder cursor state with ⟨⟨look, inner⟩, after, trace⟩
      rcases hends : look.ends wanted with _ | _
      · have hlt := h.bound_look_lt wanted cursor hb hlook hends
        obtain ⟨before, last, cursor', state', trace', hlooks, hbefore, hlast, hrun⟩ :=
          ih _ (hn ▸ hlt) inner after rfl
        refine ⟨look :: before, last, cursor', state', trace ++ trace', ?_, ?_, hlast, ?_⟩
        · rw [List.length_cons, looks, Action.bind_eq_after, hlook]
          dsimp only
          rw [Action.bind_eq_after, hlooks]
          exact congrArg (fun later => Outcome.mk _ _ (trace ++ later)) (List.append_nil trace')
        · rw [List.any_cons, hends, hbefore]
          rfl
        · rw [h.searchFrom_eq wanted cursor hb, Eval.run_ofAction_bind, hlook]
          simp only [hends, Bool.false_eq_true, if_false, hrun]
          rfl
      · refine ⟨[], look, inner, after, trace, ?_, rfl, hends, ?_⟩
        · rw [List.length_nil, looks, Action.bind_eq_after, hlook]
          exact congrArg (Outcome.mk _ _) (List.append_nil trace)
        · rw [h.searchFrom_eq wanted cursor hb, Eval.run_ofAction_bind, hlook]
          simp only [hends, if_true]
          exact congrArg (Outcome.mk _ _) (List.append_nil trace)

end search

end Source

/-! ## Negated lambdas -/

/-- A function of what the body comes to is one of what it comes to under the binding. -/
theorem Eval.withBinding_map (f : α → β) (name : String) (value : Value) (body : Eval α) :
    withBinding name value (f <$> body) = f <$> withBinding name value body := by
  apply ext_run
  intro state
  rw [run_map, run_withBinding, run_withBinding, run_map]

/-- A lambda whose answer is whether another one refuses. -/
def Binder.negated (binder : Binder) : Binder :=
  ⟨binder.name, (fun value => .boolean !value.isTrue) <$> binder.body⟩

/-- The negated lambda gives the other answer, and otherwise does the same. -/
theorem Binder.test_negated (binder : Binder) (value : Value) :
    binder.negated.test value = (! ·) <$> binder.test value := by
  unfold test apply negated
  rw [Eval.withBinding_map, ← comp_map, ← comp_map]
  congr 1
  funext answer
  exact Value.isTrue_boolean _

namespace Source

/-- **What fails the negation of a lambda passes the lambda.** -/
theorem search_negated (source : Source) (binder : Binder) (wanted : Bool) :
    source.search binder.negated wanted = source.search binder !wanted := by
  have hhit : hit binder.negated wanted = hit binder !wanted := by
    funext gathered value
    rw [hit, hit, Binder.test_negated, bind_map_left]
    congr 1
    funext passes
    cases passes <;> cases wanted <;> rfl
  rw [search_eq_read, search_eq_read, hhit]

/-! ## What is made of a search -/

/-- What a reader makes of a value, if something is made of its result. -/
def Progress.map (f : γ → δ) : Progress β γ → Progress β δ
  | .more gathered => .more gathered
  | .done result => .done (f result)

section map

variable (source : Source) (f : γ → δ) (visit : β → Value → Eval (Progress β γ)) (finish : β → γ)

/-- A function of what is read can be taken when the reader stops, for any fuel. -/
theorem map_readWithin (fuel : Nat) (cursor : Cursor) (gathered : β) :
    f <$> source.readWithin visit finish fuel cursor gathered =
      source.readWithin (fun gathered value => Progress.map f <$> visit gathered value)
        (f ∘ finish) fuel cursor gathered := by
  induction fuel generalizing cursor gathered with
  | zero => rfl
  | succ fuel ih =>
      rw [readWithin, readWithin, map_bind]
      congr 1
      funext pulled
      obtain ⟨answer, inner⟩ := pulled
      rcases answer with _ | e | value
      · rfl
      · rfl
      · dsimp only
        rw [map_bind, bind_map_left]
        congr 1
        funext progress
        rcases progress with gathered | result
        · exact ih inner gathered
        · rfl

/-- To make something of the result is to read for what is made of it. -/
theorem map_read (gathered : β) :
    f <$> source.read visit finish gathered =
      source.read (fun gathered value => Progress.map f <$> visit gathered value) (f ∘ finish)
        gathered := by
  rw [read, read, map_bind]
  congr 1
  funext cursor
  apply Eval.ext_run
  intro state
  have hwithin := source.map_readWithin f visit finish (cursor.bound state + 1) cursor gathered
  have hrun := congrArg (Eval.run · state) hwithin
  rw [Eval.run_map] at hrun ⊢
  exact hrun

end map

/-- Trying a value is the test by the lambda and a look at its answer. -/
theorem hit_eq_map (binder : Binder) (wanted : Bool) (gathered : Unit) (value : Value) :
    hit binder wanted gathered value = (fun passes =>
      if passes == wanted then .done (some value) else .more ()) <$> binder.test value :=
  (map_eq_pure_bind _ _).symm

/-- A function of what is found can be taken as soon as it is found. -/
theorem map_search (f : Option Value → γ) (source : Source) (binder : Binder) (wanted : Bool) :
    f <$> source.search binder wanted = source.read (fun _ value => do
      return if (← binder.test value) == wanted then .done (f (some value)) else .more ())
      (fun _ => f none) () := by
  rw [search_eq_read, map_read]
  congr 1
  funext gathered value
  rw [hit_eq_map, ← comp_map, map_eq_pure_bind]
  congr 1
  funext passes
  rw [Function.comp]
  split <;> rfl

/-- **Of a sequence that is limited to one item, that item is read** and nothing else. -/
theorem Descends.collect_limited_one {source : Source} (h : source.Descends) :
    (source.limited (pure 1)).collect =
      Option.toList <$> source.read (fun (_ : Unit) value => pure (.done (some value)))
        (fun _ => none) () := by
  have hmore : ∀ (gathered : List Value) (value : Value),
      (pure (.more (value :: gathered)) : Eval (Progress (List Value) (List Value))).Advances :=
    fun _ _ => Eval.advances_pure _
  have hdone : ∀ (gathered : Unit) (value : Value),
      (pure (.done (some value)) : Eval (Progress Unit (Option Value))).Advances :=
    fun _ _ => Eval.advances_pure _
  rw [collect, read, map_bind, start_limited_pure, bind_map_left]
  congr 1
  funext cursor
  have hadvance : (source.limited (pure 1)).advance (.atMost 1 cursor) =
      (source.advance cursor >>= fun pulled => pure (pulled.1, .atMost 0 pulled.2)) := rfl
  rw [drain, (h.limited (pure 1)).readFrom_eq hmore, h.readFrom_eq hdone, map_bind, hadvance,
    Eval.ofAction_bind, bind_assoc]
  congr 1
  funext pulled
  obtain ⟨answer, inner⟩ := pulled
  rcases answer with _ | e | value
  · rfl
  · rfl
  -- One item was read, and nothing is pulled beyond it.
  · exact (h.limited (pure 1)).readFrom_eq hmore (.atMost 0 inner) [value]

/-- To read one item of a selection is to search for it. -/
theorem Descends.read_sifted_eq_search {source : Source} (h : source.Descends) {binder : Binder}
    (hb : Binder.Obeys (State.later queries) binder) :
    (source.sifted true binder).read (fun (_ : Unit) value => pure (.done (some value)))
      (fun _ => none) () = source.search binder true := by
  rw [h.read_sifted (fun _ _ => Eval.obeys_pure _) hb, search_eq_read]
  congr 1
  funext gathered value
  rw [hit]
  congr 1
  funext passes
  cases passes <;> rfl

end Source

/-! ## Quantifiers -/

namespace Operator

/-- Whether some item passes: whether a search for one that does finds anything. -/
theorem someItem_eq_map_search (source : Source) (binder : Binder) :
    someItem source binder =
      (fun found => .boolean found.isSome) <$> source.search binder true := by
  rw [Source.map_search, someItem]
  congr 1
  funext gathered value
  congr 1
  funext passes
  cases passes <;> rfl

/-- Whether all items pass: whether a search for one that does not finds nothing. -/
theorem everyItem_eq_map_search (source : Source) (binder : Binder) :
    everyItem source binder =
      (fun found => .boolean found.isNone) <$> source.search binder false := by
  rw [Source.map_search, everyItem]
  congr 1
  funext gathered value
  congr 1
  funext passes
  cases passes <;> rfl

/-- The first item that passes is what a search for one finds. -/
theorem firstItem_eq_map_search (source : Source) (binder : Binder) :
    firstItem source binder = (fun found => found.getD .null) <$> source.search binder true := by
  rw [Source.map_search, firstItem]
  congr 1
  funext gathered value
  congr 1
  funext passes
  cases passes <;> rfl

end Operator

/-- An operator that looks for an item that decides. -/
inductive Quantifier where
  /-- Whether some item passes. -/
  | some
  /-- Whether every item passes. -/
  | every
  /-- The first item that passes. -/
  | first

namespace Quantifier

/-- The operator. -/
def op : Quantifier → Operator
  | some => .exists
  | every => .all
  | first => .first

/-- What the lambda gives for an item that decides. -/
def wanted : Quantifier → Bool
  | some | first => true
  | every => false

/-- The answer to what is found: an item that decides, or none. -/
def answer : Quantifier → Option Value → Value
  | some, found => .boolean found.isSome
  | every, found => .boolean found.isNone
  | first, found => found.getD .null

/-- The quantifier as an expression. -/
def expr (quantifier : Quantifier) (source : Expr) (lambda : Lambda) : Expr :=
  .call quantifier.op [source, .lambda lambda.name lambda.body]

end Quantifier

/-- The lambda with the negated body. -/
def Lambda.negated (lambda : Lambda) : Lambda :=
  ⟨lambda.name, .not lambda.body⟩

namespace Expr

/-- The first so many items of a sequence. -/
def limited (source : Expr) (count : Int64) : Expr :=
  .call .limit [source, .literal (.integer count)]

/-- A limit by a number that is not negative is that limit. -/
theorem meaning_limited (ctx : Context) (source : Expr) {count : Int64} (h : 0 ≤ count.toInt) :
    (source.limited count).meaning ctx =
      .ofSource ((source.source ctx).limited (pure count.toInt.toNat)) := by
  rw [limited, meaning, meanings, meanings, meanings, meaning, ← Operator.limitCount_pure h]
  rfl

/-- A negation gives what its operand does not. -/
theorem value_not (ctx : Context) (operand : Expr) :
    (not operand).value ctx = (fun value => .boolean !value.isTrue) <$> operand.value ctx := by
  rw [Expr.value, not, meaning, meanings, meanings, map_eq_pure_bind]
  rfl

/-- A negation is nothing but its value. -/
theorem meaning_not (ctx : Context) (operand : Expr) :
    (not operand).meaning ctx = .ofValue ((not operand).value ctx) := by
  rw [Expr.value, not, meaning, meanings, meanings]
  rfl

/-- The lambda with the negated body is the negated lambda. -/
theorem meaning_lambda_negated (ctx : Context) (lambda : Lambda) :
    lambda.negated.meaning ctx = (lambda.meaning ctx).negated :=
  congrArg (Binder.mk lambda.name) (value_not ctx lambda.body)

end Expr

namespace Quantifier

variable (ctx : Context) (source : Expr) (lambda : Lambda)

/-- **A quantifier searches its source.** -/
theorem value_expr (quantifier : Quantifier) :
    (quantifier.expr source lambda).value ctx =
      quantifier.answer <$>
        (source.source ctx).search (lambda.meaning ctx) quantifier.wanted := by
  rw [Expr.value, expr, Expr.meaning, Expr.meanings, Expr.meanings, Expr.meanings, Expr.meaning]
  cases quantifier with
  | some => exact Operator.someItem_eq_map_search _ _
  | every => exact Operator.everyItem_eq_map_search _ _
  | first => exact Operator.firstItem_eq_map_search _ _

/-- A quantifier is nothing but its value. -/
theorem meaning_expr (quantifier : Quantifier) :
    (quantifier.expr source lambda).meaning ctx =
      .ofValue ((quantifier.expr source lambda).value ctx) := by
  rw [Expr.value, expr, Expr.meaning, Expr.meanings, Expr.meanings, Expr.meanings, Expr.meaning]
  cases quantifier <;> rfl

/-- The looks of a quantifier, from the opened source on. -/
theorem exists_looks (quantifier : Quantifier) {state opened : State} {cursor : Cursor}
    {trace : Trace} (hstart : (source.source ctx).start.run state = ⟨.ok cursor, opened, trace⟩) :
    ∃ (before : List Look) (last : Look) (cursor' : Cursor) (state' : State) (trace' : Trace),
      (source.source ctx).looks (lambda.meaning ctx) (before.length + 1) cursor opened =
          ⟨(before ++ [last], cursor'), state', trace'⟩ ∧
        before.any (·.ends quantifier.wanted) = false ∧ last.ends quantifier.wanted = true ∧
        ((quantifier.expr source lambda).value ctx).run state =
          ⟨last.found.map quantifier.answer, state', trace ++ trace'⟩ := by
  obtain ⟨before, last, cursor', state', trace', hlooks, hbefore, hlast, hrun⟩ :=
    (source.source_descends ctx).exists_looks quantifier.wanted cursor
      (lambda.meaning_obeys (State.later ctx.queries)) opened
  refine ⟨before, last, cursor', state', trace', hlooks, hbefore, hlast, ?_⟩
  have hok : ((source.source ctx).start.run state).value = .ok cursor := by rw [hstart]
  rw [value_expr, Eval.run_map, Source.search, Eval.run_bind_ok hok, hstart, hrun]
  rfl

/-- A source that is not opened fails the quantifier. -/
theorem run_of_start_error (quantifier : Quantifier) {state state' : State} {e : QueryError}
    {trace : Trace} (hstart : (source.source ctx).start.run state = ⟨.error e, state', trace⟩) :
    ((quantifier.expr source lambda).value ctx).run state = ⟨.error e, state', trace⟩ := by
  have herror : ((source.source ctx).start.run state).value = .error e := by rw [hstart]
  rw [value_expr, Eval.run_map, Source.search, Eval.run_bind_error herror, hstart]
  rfl

/-- **Some item passes unless every item passes the negation.** -/
theorem meaning_some_eq_not_every :
    (some.expr source lambda).meaning ctx = (every.expr source lambda.negated).not.meaning ctx := by
  rw [Expr.meaning_not, meaning_expr]
  congr 1
  rw [Expr.value_not, value_expr, value_expr, Expr.meaning_lambda_negated, Source.search_negated,
    ← comp_map]
  congr 1
  funext found
  rcases found with _ | value <;> rfl

/-- **Every item passes unless some item passes the negation.** -/
theorem meaning_every_eq_not_some :
    (every.expr source lambda).meaning ctx = (some.expr source lambda.negated).not.meaning ctx := by
  rw [Expr.meaning_not, meaning_expr]
  congr 1
  rw [Expr.value_not, value_expr, value_expr, Expr.meaning_lambda_negated, Source.search_negated,
    ← comp_map]
  congr 1
  funext found
  rcases found with _ | value <;> rfl

/-- **A selection that is limited to one item is a search.** -/
theorem value_limited_select_one :
    ((source.select lambda).limited 1).value ctx =
      (fun found => .list found.toList) <$>
        (source.source ctx).search (lambda.meaning ctx) true := by
  have hlambda := lambda.meaning_obeys (State.later ctx.queries)
  have hdescends := source.source_descends ctx
  have hlimited : ((source.select lambda).limited 1).value ctx =
      Value.list <$> (((source.source ctx).sifted true (lambda.meaning ctx)).limited
        (pure 1)).collect := by
    rw [Expr.value, Expr.meaning_limited ctx _ (by decide), Expr.source_select]
    rfl
  rw [hlimited, (hdescends.sifted true hlambda).collect_limited_one,
    hdescends.read_sifted_eq_search hlambda, ← comp_map]
  rfl

/-- **Quantifiers decide at the first deciding item, and are dual.** Take any source, any lambda and
any context.

* From any state, a quantifier opens its source and fails where that fails. Otherwise it looks at
  the items in order: none of the looks before the last one ends the search, the last one does, and
  its failure, its item or the end of the source is answered. State and events are those of opening
  the source and of these looks, so nothing is pulled beyond the last of them.
* An `exists` means the same as the negated `all` of the negated lambda, and the other way round.
* There is a search of which `first` gives the value that it finds, or the absent value, and the
  selection that is limited to one item the list of it, or the empty list. -/
theorem search_laws (ctx : Context) (source : Expr) (lambda : Lambda) :
    (∀ (quantifier : Quantifier) (state : State),
      let start := (source.source ctx).start.run state
      let answer := ((quantifier.expr source lambda).value ctx).run state
      (∃ e, start.value = .error e ∧ answer = ⟨.error e, start.state, start.trace⟩) ∨
        ∃ (cursor : Cursor) (before : List Look) (last : Look) (cursor' : Cursor) (state' : State)
          (trace : Trace),
          start.value = .ok cursor ∧
          (source.source ctx).looks (lambda.meaning ctx) (before.length + 1) cursor start.state =
            ⟨(before ++ [last], cursor'), state', trace⟩ ∧
          before.any (·.ends quantifier.wanted) = false ∧ last.ends quantifier.wanted = true ∧
          answer = ⟨last.found.map quantifier.answer, state', start.trace ++ trace⟩) ∧
    (some.expr source lambda).meaning ctx = (every.expr source lambda.negated).not.meaning ctx ∧
    (every.expr source lambda).meaning ctx = (some.expr source lambda.negated).not.meaning ctx ∧
    ∃ search : Eval (Option Value),
      (first.expr source lambda).value ctx = (fun found => found.getD .null) <$> search ∧
      ((source.select lambda).limited 1).value ctx =
        (fun found => .list found.toList) <$> search := by
  refine ⟨fun quantifier state => ?_, meaning_some_eq_not_every ctx source lambda,
    meaning_every_eq_not_some ctx source lambda,
    (source.source ctx).search (lambda.meaning ctx) true, value_expr ctx source lambda first,
    value_limited_select_one ctx source lambda⟩
  rcases hstart : (source.source ctx).start.run state with ⟨e | cursor, opened, trace⟩
  · exact .inl ⟨e, rfl, run_of_start_error ctx source lambda quantifier hstart⟩
  · obtain ⟨before, last, cursor', state', trace', hlooks, hbefore, hlast, hanswer⟩ :=
      exists_looks ctx source lambda quantifier hstart
    exact .inr ⟨cursor, before, last, cursor', state', trace', rfl, hlooks, hbefore, hlast,
      hanswer⟩

end Quantifier

end RecordQuery
