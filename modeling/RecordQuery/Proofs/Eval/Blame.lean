import RecordQuery.Proofs.Eval.Comparison.Meanings
import RecordQuery.Proofs.Expr.Blame

/-!
# What an evaluation can see, and what it can end in

Evaluation sees the live bindings through the variables that its expression reads, and through the
two that are built in. Two runs in states whose bindings agree on these have the same result and the
same trace, and an error that either ends in is one that the expression can be blamed for, that a
query object brings up, or that an item carries.

* `Expr.meaning_alike`: the induction over the expression.
* **Main statement** (`Expr.blames_of_failsWith`): where an error of an evaluation, of opening a
  sequence, or of a later pull on it, can come from.
-/

namespace RecordQuery

/-! ## Bindings that agree -/

/-- Live bindings that agree on some variables and on those that are built in, and hold one for each
variable of a scope. -/
structure Bindings.Agree (Names : String → Prop) (scope : List String)
    (σ σ' : List (String × Value)) : Prop where
  /-- They agree on the variables. -/
  lookup : ∀ name, Names name ∨ Expr.IsBuiltIn name →
    Named.lookup name σ' = Named.lookup name σ
  /-- They hold a binding for each variable of the scope. -/
  bound : ∀ name ∈ scope, (Named.lookup name σ).isSome

variable {Names : String → Prop} {scope : List String}

/-- A binding that is made on both sides is in scope from then on. -/
theorem Bindings.Agree.push {σ σ' : List (String × Value)} (h : Agree Names scope σ σ')
    (name : String) (value : Value) :
    Agree Names (name :: scope) ((name, value) :: σ) ((name, value) :: σ') := by
  refine ⟨fun other hother => ?_, fun other hother => ?_⟩
  · rw [Named.lookup, Named.lookup, h.lookup other hother]
  · rcases List.mem_cons.mp hother with rfl | hother
    · rw [Named.lookup_cons_self]
      rfl
    · rw [Named.lookup]
      split
      · rfl
      · exact h.bound other hother

variable {ctx : Context} (c : Comparison ctx.queries)

/-- What a comparison of an expression with itself needs of the expression, where the variables of
a scope have bindings. -/
structure Comparison.Suits (Names : String → Prop) (scope : List String) (e : Expr) : Prop where
  /-- The variables that it reads are agreed on. -/
  names : ∀ node ∈ e.walk, ∀ name ∈ node.readName?, Names name
  /-- It can take the working set only if that comes to the same in both runs. -/
  sharing : ∀ node ∈ e.walk, node.usesWorkingSet = true → c.sharing.TakesAlike
  /-- The errors that it can be blamed for are expected. -/
  blames : ∀ error, e.Blames ctx.parameters scope error → c.Expected error

variable {c}

/-- What suits an expression suits the parts that are evaluated with it. -/
theorem Comparison.Suits.part {scope' : List String} {e part : Expr} (h : c.Suits Names scope e)
    (hpart : e.Part scope scope' part) : c.Suits Names scope' part where
  names := hpart.forall_mem_walk h.names
  sharing := hpart.forall_mem_walk h.sharing
  blames error herror := h.blames error (.part hpart herror)

/-! ## Variables -/

/-- A variable that is agreed on, and is in scope or may be unbound, is read alike. -/
theorem Eval.alike_resolve_of_agree {name : String} (hname : Names name ∨ Expr.IsBuiltIn name)
    (hscope : name ∉ scope → c.Expected (.variableUnbound name)) :
    Eval.Alike c (Bindings.Agree Names scope) (fun _ => True) (resolve name) (resolve name) := by
  refine Eval.alike_resolve fun σ σ' h => ⟨h.lookup name hname, fun hnone => ⟨rfl, ?_⟩⟩
  refine hscope fun hmem => ?_
  have hsome := h.bound name hmem
  rw [hnone] at hsome
  cases hsome

/-- Lambdas of one variable are alike if their bodies are, with the variable in scope. -/
theorem Binder.alike_of_agree {name : String} {body body' : Eval Value}
    (h : Eval.Alike c (Bindings.Agree Names (name :: scope)) (fun _ => True) body body') :
    Binder.Alike c (Bindings.Agree Names scope) ⟨name, body⟩ ⟨name, body'⟩ :=
  Binder.alike_of_body (fun value _ _ hσ => hσ.push name value) h

/-! ## Expressions -/

namespace Expr

/-- Only a lambda is taken for one by the node above it. -/
theorem lambda?_meaning {e : Expr} (h : ∀ binder body, e ≠ .lambda binder body) :
    (e.meaning ctx).lambda? = none := by
  cases e
  case lambda binder body => exact absurd rfl (h binder body)
  all_goals rw [meaning]
  case literal | parameter => rfl
  case var => unfold Meaning.ofVar; split <;> rfl
  case call => unfold Meaning.ofCall; split <;> rfl
  case filter kind _ => cases kind <;> rfl
  case filterBy kind _ _ _ => cases kind <;> rfl

mutual

/-- All that an expression means is the same to runs in states whose bindings agree on the variables
that it reads. By induction over the expression; a lambda adds its variable to the scope. -/
theorem meaning_alike : ∀ (e : Expr) (scope : List String), c.Suits Names scope e →
    Meaning.Alike c (Bindings.Agree Names scope) (e.meaning ctx) (e.meaning ctx)
  | .literal value, _, _ => by
    rw [meaning]
    exact Meaning.alike_ofValue (Eval.alike_pure trivial)
  | .var name, _, h => by
    rw [meaning]
    by_cases hname : name = everythingName
    · subst hname
      exact Meaning.alike_ofVar_everything (fun _ _ hσ => hσ.lookup _ (.inr (.inr rfl)))
        (Source.alike_everything (h.sharing _ (mem_walk_self _) rfl) (h.blames _ (.workingSet rfl)))
    · have hread := h.names _ (mem_walk_self _) name rfl
      exact Meaning.alike_ofVar hname hname <|
        Eval.alike_resolve_of_agree (.inl hread) fun hscope => h.blames _ (.unbound hname hscope)
  | .parameter ref, _, h => by
    rw [meaning]
    exact Meaning.alike_ofValue (Eval.alike_parameter fun hnone => h.blames _ (.parameter hnone))
  | .lambda binder body, scope, h => by
    rw [meaning]
    have hbody := meaning_alike body (binder :: scope) (h.part .lambda)
    refine Meaning.alike_ofLambda ?_ (Binder.alike_of_agree hbody.value)
    exact Eval.alike_resolve_of_agree (.inr (.inl rfl)) fun hscope => h.blames _ (.lambda hscope)
  | .call op operands, scope, h => by
    rw [meaning]
    rcases hop : op.isQuantifier with _ | _
    · refine Meaning.alike_ofCall (fun _ _ => h.blames _ .operator) ?_ ?_
        (meanings_alike operands scope fun operand hmem => h.part (.operand hop hmem))
      · rintro rfl typeName
        exact h.blames _ .object
      · rintro rfl hlength
        obtain ⟨object, rfl⟩ : ∃ object, operands = [object] := by
          rcases operands with _ | ⟨object, _ | _⟩
          · cases hlength
          · exact ⟨object, rfl⟩
          · cases hlength
        exact .omitted
          (Eval.alike_resolve_of_agree (.inr (.inl rfl)) fun hscope =>
            h.blames _ (.candidate hscope))
          (Source.alike_everything (h.sharing _ (mem_walk_self _) rfl)
            (h.blames _ (.workingSet rfl)))
    · exact quantified_alike op hop operands scope h
  | .filter kind source, scope, h => by
    rw [meaning]
    exact Meaning.alike_ofFilter (h.blames _ .filter) (meaning_alike source scope (h.part .filter))
  | .filterBy kind source binder body, scope, h => by
    rw [meaning]
    have hsource := meaning_alike source scope (h.part .filterBySource)
    have hbody := meaning_alike body (binder :: scope) (h.part .filterByBody)
    exact Meaning.alike_ofFilterBy kind hsource (Binder.alike_of_agree hbody.value)

/-- So are several expressions. -/
theorem meanings_alike : ∀ (es : List Expr) (scope : List String),
    (∀ e ∈ es, c.Suits Names scope e) →
      List.Forall₂ (Meaning.Alike c (Bindings.Agree Names scope)) (meanings ctx es)
        (meanings ctx es)
  | [], _, _ => .nil
  | e :: rest, scope, h => by
    rw [List.forall_mem_cons] at h
    exact .cons (meaning_alike e scope h.1) (meanings_alike rest scope h.2)

/-- Of its second operand, a quantifier uses only the lambda. -/
theorem quantified_alike (op : Operator) (hop : op.isQuantifier = true) :
    ∀ (operands : List Expr) (scope : List String), c.Suits Names scope (.call op operands) →
      Meaning.Alike c (Bindings.Agree Names scope)
        (.ofCall ctx op (meanings ctx operands)) (.ofCall ctx op (meanings ctx operands))
  | [source, applied], scope, h => by
    have hsource := meaning_alike source scope (h.part (.quantified hop))
    refine Meaning.alike_quantifier hop (fun _ _ => h.blames _ .operator) hsource ?_
    exact lambda?_alike applied scope fun binder body heq => (heq ▸ h).part (.quantifier hop)
  | [], scope, h | [_], scope, h | _ :: _ :: _ :: _, scope, h => by
    rw [Meaning.ofCall_of_not_allows ctx (by cases op <;> first | rfl | cases hop)]
    exact Meaning.alike_ofValue (Eval.alike_throw (h.blames _ .operator))

/-- An expression that is a lambda is so by its body, under the binding that it makes. -/
theorem lambda?_alike : ∀ (e : Expr) (scope : List String),
    (∀ binder body, e = .lambda binder body → c.Suits Names (binder :: scope) body) →
    Option.Rel (Binder.Alike c (Bindings.Agree Names scope)) (e.meaning ctx).lambda?
      (e.meaning ctx).lambda?
  | .lambda binder body, scope, h => by
    rw [meaning]
    have hbody := meaning_alike body (binder :: scope) (h binder body rfl)
    exact .some (Binder.alike_of_agree hbody.value)
  | .literal _, _, _ | .var _, _, _ | .parameter _, _, _ | .call _ _, _, _ | .filter _ _, _, _
  | .filterBy _ _ _ _, _, _ => by
    rw [lambda?_meaning (by rintro binder body ⟨⟩)]
    exact .none

end

/-! ## Errors -/

/-- Where an error of an expression can show: when its value is computed or it is decided, when its
sequence is opened or collected, or later, when the sequence is pulled on. -/
inductive FailsWith (ctx : Context) (e : Expr) (state : State) (error : QueryError) : Prop
  /-- The expression has no value. -/
  | value (h : ((e.value ctx).run state).value = .error error)
  /-- It cannot be told whether the expression is true. -/
  | isTrue (h : ((e.isTrue ctx).run state).value = .error error)
  /-- The sequence cannot be opened. -/
  | start (h : ((e.source ctx).start.run state).value = .error error)
  /-- A pull on the sequence, however far it was read, brings a failing item. -/
  | advance (cursor : Cursor)
    (h : ((e.source ctx).advance cursor state).value.1 = some (.error error))
  /-- The items of the sequence cannot be collected. -/
  | collect (h : ((e.source ctx).collect.run state).value = .error error)

/-- **An error has a cause**: the expression can be blamed for it, where the variables of a scope
have bindings, or a query object brings it up, or an item of the working set carries it. -/
theorem blames_of_failsWith {e : Expr} {scope : List String} {state : State} {error : QueryError}
    (hscope : ∀ name ∈ scope, (Named.lookup name state.bindings).isSome)
    (h : e.FailsWith ctx state error) :
    e.Blames ctx.parameters scope error ∨ state.Carries error ∨ ctx.queries.Raises error := by
  -- a run beside itself ends in an error of which one of the three holds
  let c : Comparison ctx.queries :=
    ⟨.shared, fun error => e.Blames ctx.parameters scope error ∨ state.Carries error ∨
      ctx.queries.Raises error, fun hraises => .inr (.inr hraises)⟩
  have hsuits : c.Suits (fun _ => True) scope e :=
    ⟨fun _ _ _ _ => trivial, fun _ _ _ => trivial, fun _ hblames => .inl hblames⟩
  have halike := meaning_alike e scope hsuits
  have hrelated : c.Related (Bindings.Agree (fun _ => True) scope) state state :=
    ⟨⟨fun _ _ => rfl, hscope⟩, rfl, fun _ hcarries => .inr (.inl hcarries)⟩
  rcases h with h | h | h | ⟨cursor, h⟩ | h
  · exact halike.value.expected_of_error hrelated h
  · have htrue : Eval.Alike c _ (fun _ => True) (e.isTrue ctx) (e.isTrue ctx) :=
      Eval.alike_map Value.isTrue halike.value fun _ _ => trivial
    exact htrue.expected_of_error hrelated h
  · exact halike.source.start.expected_of_error hrelated h
  · exact (halike.source.advance cursor (.inl trivial) _ _ hrelated).holds.1 _ h
  · exact halike.source.collect.expected_of_error hrelated h

end Expr

end RecordQuery
