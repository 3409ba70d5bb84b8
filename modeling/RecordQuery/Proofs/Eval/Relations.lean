import RecordQuery.Catalog
import RecordQuery.Proofs.Eval.Outcome
import RecordQuery.Proofs.Value.Order

/-!
# The comparison operators

What a comparison makes of two expressions depends on nothing but the values of the two
(`Expr.run_comparison`), so the six operators can be set side by side as functions of two values
(`Operator.answer`). Four of them go by the order of values and fail where there is none; equality
and its negation fall back on the contents of the values there and never fail.

**Main statement** (`Operator.comparisons_coherent`): the six operators never contradict each other,
whichever value comes first, and the order behind them is transitive as far as it can be.
-/

namespace RecordQuery

namespace Operator

/-! ## Answers -/

/-- The operators that go by the order of two values. -/
def orderings : List Operator := [.less, .lessOrEqual, .greater, .greaterOrEqual]

/-- The operators that compare two values. -/
def comparisons : List Operator := .equals :: .notEquals :: orderings

/-- What a comparison answers of two values. -/
def answer (op : Operator) (a b : Value) : Except QueryError Value :=
  match op with
  | .equals => .ok (.boolean (a.matchesValue b))
  | .notEquals => .ok (.boolean !(a.matchesValue b))
  | op => op.order a b

end Operator

/-- **A comparison goes by the values of its operands**, which are evaluated from left to right, and
does nothing else. -/
theorem Expr.run_comparison {ctx : Context} {op : Operator} (hop : op ∈ Operator.comparisons)
    {left right : Expr} {a b : Value} {state middle final : State} {trace trace' : Trace}
    (hleft : (left.value ctx).run state = ⟨.ok a, middle, trace⟩)
    (hright : (right.value ctx).run middle = ⟨.ok b, final, trace'⟩) :
    ((Expr.call op [left, right]).value ctx).run state =
      ⟨op.answer a b, final, trace ++ trace'⟩ := by
  rw [Expr.value, meaning, meanings, meanings, meanings]
  have hpair (f : Value → Value → Eval Value) (h : (f a b).run final = ⟨op.answer a b, final, []⟩) :
      (left.value ctx >>= fun x => right.value ctx >>= f x).run state =
        ⟨op.answer a b, final, trace ++ trace'⟩ := by
    rw [Eval.run_bind_bind_ok hleft hright, h, Outcome.after, List.append_nil]
  simp only [Operator.comparisons, Operator.orderings, List.mem_cons, List.not_mem_nil,
    or_false] at hop
  rcases hop with rfl | rfl | rfl | rfl | rfl | rfl
  all_goals exact hpair _ rfl

namespace Operator

variable {a b c : Value}

/-! ## Where values compare, and where they do not -/

/-- An ordering answers by the order of the values alone. -/
theorem answer_eq_order {op : Operator} (hop : op ∈ orderings) (a b : Value) :
    op.answer a b = op.order a b := by
  simp only [orderings, List.mem_cons, List.not_mem_nil, or_false] at hop
  rcases hop with rfl | rfl | rfl | rfl
  all_goals rfl

/-- **Values that do not compare** are in no order, and every operator that goes by it fails. -/
theorem answer_of_not_compare? (h : a.compare? b = none) {op : Operator} (hop : op ∈ orderings) :
    op.answer a b = .error (op.fault 1 (.incomparable a.typeName b.typeName)) := by
  rw [answer_eq_order hop, order, h]

/-- Values that compare are in the order that they compare in. -/
theorem answer_of_compare? {ordering : Ordering} (h : a.compare? b = some ordering) {op : Operator}
    (hop : op ∈ orderings) : op.answer a b = .ok (.boolean (op.holds ordering)) := by
  rw [answer_eq_order hop, order, h]

/-- **Of values that compare** one comes before the other or they are equal, never two of these at
once, and the other operators say the same of them. -/
theorem exactly_one_of_compare? (h : a.compare? b ≠ none) :
    ∃ less equal greater : Bool, [less, equal, greater].count true = 1 ∧
      answer .less a b = .ok (.boolean less) ∧
      answer .equals a b = .ok (.boolean equal) ∧
      answer .greater a b = .ok (.boolean greater) ∧
      answer .greater b a = answer .less a b ∧
      answer .lessOrEqual a b = .ok (.boolean !greater) ∧
      answer .greaterOrEqual a b = .ok (.boolean !less) := by
  obtain ⟨ordering, hordering⟩ := Option.ne_none_iff_exists'.mp h
  have hswap : b.compare? a = some ordering.swap := by
    rw [Value.compare?_swap a b, hordering]
    rfl
  refine ⟨ordering.isLT, decide (ordering = .eq), ordering.isGT, ?_, ?_, ?_, ?_, ?_, ?_, ?_⟩
  · cases ordering <;> rfl
  · exact answer_of_compare? hordering (by decide)
  · rw [answer, Value.matchesValue_of_compare? hordering]
  · exact answer_of_compare? hordering (by decide)
  · rw [answer_of_compare? hswap (by decide), answer_of_compare? hordering (by decide)]
    cases ordering <;> rfl
  · rw [answer_of_compare? hordering (by decide)]
    cases ordering <;> rfl
  · rw [answer_of_compare? hordering (by decide)]
    cases ordering <;> rfl

/-- **The comparisons are coherent.** A call of one of them goes by the values of its operands
alone, and of these holds:

* they compare the other way around as they do one way around, or neither way;
* if they do not compare, the four operators that go by the order fail; if they do, then exactly one
  of `<`, `==` and `>` holds, `<` is `>` with the values exchanged, `<=` is the negation of `>`, and
  `>=` that of `<`;
* `==` never fails, is reflexive and symmetric and holds of equal values, and `!=` negates it;
* without versions, or with one text at most, the order is transitive, and strict if one of two
  comparisons in a row is;
* on values of one type `==` is equality of values, and so is the order where they compare; a string
  and an identifier are equal in the order exactly if they have the same text, and a string and a
  version exactly if the string can be read as that version. -/
theorem comparisons_coherent (a b c : Value) :
    (∀ op ∈ comparisons, ∀ (ctx : Context) (left right : Expr) (state middle final : State)
      (trace trace' : Trace), (left.value ctx).run state = ⟨.ok a, middle, trace⟩ →
        (right.value ctx).run middle = ⟨.ok b, final, trace'⟩ →
        ((Expr.call op [left, right]).value ctx).run state =
          ⟨op.answer a b, final, trace ++ trace'⟩) ∧
    b.compare? a = (a.compare? b).map Ordering.swap ∧
    (a.compare? b = none → ∀ op ∈ orderings,
      op.answer a b = .error (op.fault 1 (.incomparable a.typeName b.typeName))) ∧
    (a.compare? b ≠ none → ∃ less equal greater : Bool, [less, equal, greater].count true = 1 ∧
      answer .less a b = .ok (.boolean less) ∧
      answer .equals a b = .ok (.boolean equal) ∧
      answer .greater a b = .ok (.boolean greater) ∧
      answer .greater b a = answer .less a b ∧
      answer .lessOrEqual a b = .ok (.boolean !greater) ∧
      answer .greaterOrEqual a b = .ok (.boolean !less)) ∧
    answer .equals a a = .ok (.boolean true) ∧
    (∃ equal : Bool, answer .equals a b = .ok (.boolean equal) ∧
      answer .equals b a = .ok (.boolean equal) ∧
      answer .notEquals a b = .ok (.boolean !equal) ∧ (Value.same a b = true → equal = true)) ∧
    ((∀ value ∈ [a, b, c], ∀ v, value ≠ .version v) ∨
        [a, b, c].countP (fun value => value.text?.isSome) ≤ 1 →
      ∀ first second, a.compare? b = some first → b.compare? c = some second →
        first.isLE = true → second.isLE = true →
        ∃ ordering, a.compare? c = some ordering ∧ ordering.isLE = true ∧
          (first = .lt ∨ second = .lt → ordering = .lt)) ∧
    (a.typeName = b.typeName → answer .equals a b = .ok (.boolean (Value.same a b)) ∧
      ∀ ordering, a.compare? b = some ordering → (ordering = .eq ↔ Value.same a b = true)) ∧
    (∀ s item, Value.compare? (.string s) (.id item) = some .eq ↔ s = item.text) ∧
    (∀ s v, Value.compare? (.string s) (.version v) = some .eq ↔ Version.parse s = .ok v) := by
  refine ⟨?_, Value.compare?_swap a b, fun h op hop => answer_of_not_compare? h hop,
    exactly_one_of_compare?, ?_, ?_, ?_, ?_, Value.compare?_string_id, Value.compare?_string_version⟩
  · intro op hop ctx left right state middle final trace trace' hleft hright
    exact Expr.run_comparison hop hleft hright
  · rw [answer, Value.matchesValue_self]
  · refine ⟨a.matchesValue b, rfl, ?_, rfl, Value.matchesValue_of_same⟩
    rw [answer, Value.matchesValue_symm]
  · intro h first second hab hbc hfirst hsecond
    exact Value.compare?_trans h hab hbc hfirst hsecond
  · intro htype
    refine ⟨?_, fun ordering h => Value.compare?_eq_some_eq_iff htype h⟩
    rw [answer, Value.matchesValue_eq_same htype]

/-- A text that can be read as a version is before whatever that version is before. -/
theorem comparisons_coherent_of_text :
    let ctx : Context := ⟨.none, none, Catalog.queries []⟩
    ((Expr.call .less [.literal (.string "1.9"), .literal (.version ⟨1, 10, 0, ""⟩)]).value ctx).run
      .initial = ⟨.ok (.boolean true), .initial, []⟩ := by
  intro ctx
  obtain ⟨-, -, -, -, -, -, htrans, -⟩ := comparisons_coherent (.string "1.9")
    (.version ⟨1, 9, 0, ""⟩) (.version ⟨1, 10, 0, ""⟩)
  obtain ⟨ordering, hordering, -, hlt⟩ :=
    htrans (.inr (by decide)) .eq .lt (by decide) (by decide) rfl rfl
  obtain ⟨hrun, -⟩ := comparisons_coherent (.string "1.9") (.version ⟨1, 10, 0, ""⟩) .null
  rw [hrun .less (by decide) ctx _ _ _ _ _ _ _ (Expr.run_literal ..) (Expr.run_literal ..),
    answer_of_compare? hordering (by decide), hlt (.inr rfl)]
  rfl

end Operator

end RecordQuery
