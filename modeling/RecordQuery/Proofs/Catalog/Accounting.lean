import RecordQuery.Proofs.Catalog.Brackets

/-!
# Every pull is accounted for

An observer counts the items that are pulled from sources. A run accounts for its pulls
(`State.Accounts`) if it counts exactly those that were made on the working set: query objects that
are called on the way pull on nothing but the sequence that they are handed.

* `Registry.Accounting.discipline`: where this is so of all query objects, every run of every
  expression accounts for its pulls.
* `Catalog.registry_accounting`: it is so of the query objects of every catalog, by induction on how
  deep their calls are nested.
-/

namespace RecordQuery

/-! ## Counting pulls -/

namespace Trace

/-- No events are no pulls. -/
@[simp] theorem pulls_nil : pulls [] = 0 := rfl

/-- Pulls in a row add up. -/
@[simp] theorem pulls_append (t u : Trace) : pulls (t ++ u) = t.pulls + u.pulls :=
  List.count_append

end Trace

/-- The announcements of a driver count for nothing. -/
theorem Prepared.pulls_setup (query : Prepared) : query.setup.pulls = 0 := by
  unfold setup
  rcases query.hooks with _ | name <;> rfl

/-- Cleaning up makes no pull. -/
theorem Prepared.pulls_teardown (query : Prepared) : query.teardown.pulls = 0 := by
  unfold teardown
  rcases query.hooks with _ | name <;> rfl

/-! ## Accounts -/

/-- A run whose trace counts the pulls by which it moved on in the working set. -/
def State.Accounts (before : State) (trace : Trace) (after : State) : Prop :=
  ∃ n, after.remaining = before.remaining.drop n ∧ trace.pulls = (before.remaining.pulled n).pulls

/-- A reading whose trace counts the pulls by which it moved on in its input. -/
def Reading.Accounts {α : Type} (input : Tape) (reading : Reading α) : Prop :=
  ∃ n, reading.rest = input.drop n ∧ reading.trace.pulls = (input.pulled n).pulls

/-- The query objects of a registry pull on nothing but what they are handed. -/
structure Registry.Accounting (queries : Registry) : Prop where
  /-- The test of a candidate pulls nothing. -/
  test : ∀ name candidate, ((queries.matching name).test candidate).trace.pulls = 0
  /-- A streaming query object makes no pulls of its own. -/
  streaming : ∀ (name : String) {trace : Trace}, (queries.sequence name).Leaves trace →
    trace.pulls = 0
  /-- A collecting query object accounts for its pulls. -/
  performing : ∀ {name : String} {perform : Tape → Reading (List Value)},
    queries.sequence name = .collecting perform → ∀ input, (perform input).Accounts input

namespace State.Accounts

/-- A run that leaves the working set alone and counts nothing. -/
theorem of_remaining_eq {before after : State} {trace : Trace}
    (h : after.remaining = before.remaining) (htrace : trace.pulls = 0) :
    before.Accounts trace after :=
  ⟨0, by simpa using h, by simpa using htrace⟩

/-- Two runs that account for their pulls do so together. -/
theorem trans {s₁ s₂ s₃ : State} {t u : Trace} (h : s₁.Accounts t s₂) (h' : s₂.Accounts u s₃) :
    s₁.Accounts (t ++ u) s₃ := by
  obtain ⟨n, hn, hpulls⟩ := h
  obtain ⟨m, hm, hpulls'⟩ := h'
  rw [hn] at hm hpulls'
  refine ⟨n + m, ?_, ?_⟩
  · rw [hm, Tape.drop_drop]
  · rw [Tape.pulled_add, Trace.pulls_append, Trace.pulls_append, hpulls, hpulls']

/-- A pull accounts for itself: one item less is left, or the end was found. -/
theorem pull (state : State) :
    state.Accounts (Action.pull state).trace (Action.pull state).state := by
  unfold Action.pull
  split
  · rename_i trace item rest hw
    have hremaining : state.remaining = .step trace item rest := by
      unfold State.remaining
      rw [hw]
    refine ⟨1, ?_, ?_⟩
    · rw [hremaining]
      exact (Tape.drop_zero rest).symm
    · simp [hremaining, Tape.pulled]
  · rename_i trace hw
    have hremaining : state.remaining = .closing trace := by
      unfold State.remaining
      rw [hw]
    refine ⟨1, ?_, ?_⟩
    · rw [hremaining]
      rfl
    · simp [hremaining, Tape.pulled]
  · exact of_remaining_eq rfl rfl

/-- A reader that accounts for its pulls on a sequence accounts for those on the working set that
the sequence made. -/
theorem performing {perform : Tape → Reading (List Value)}
    (h : ∀ input, (perform input).Accounts input) {state : State}
    {pulls : List (Outcome (Option Item))} (hlinked : Linked State.Accounts state pulls) :
    state.Accounts (perform (Source.tapeOf pulls)).trace
      (stateAfter state pulls ((Source.tapeOf pulls).length -
        (perform (Source.tapeOf pulls)).rest.length)) := by
  obtain ⟨n, hrest, hpulls⟩ := h (Source.tapeOf pulls)
  have hmade : (Source.tapeOf pulls).length - (perform (Source.tapeOf pulls)).rest.length =
      min n (Source.tapeOf pulls).length := by
    rw [hrest, Tape.length_drop]
    omega
  rw [hmade]
  obtain ⟨m, hm, hcounted⟩ := hlinked.holds_stateAfter (fun _ => of_remaining_eq rfl rfl) trans
    (min n (Source.tapeOf pulls).length)
  refine ⟨m, hm, ?_⟩
  rw [hpulls, ← hcounted, ← Source.pulled_tapeOf (Nat.min_le_right _ _), Tape.pulled_min_length]

end State.Accounts

/-- **Runs account for their pulls**, where query objects pull on nothing but what they are
handed. -/
def Registry.Accounting.discipline {queries : Registry} (h : queries.Accounting) :
    Discipline queries where
  Holds := State.Accounts
  refl _ := .of_remaining_eq rfl rfl
  trans := .trans
  scope _ _ h := h
  lookup _ _ _ _ := .of_remaining_eq rfl rfl
  take state tape hw := by
    refine .of_remaining_eq ?_ rfl
    unfold State.remaining
    rw [hw]
  pull := .pull
  test _ name candidate := .of_remaining_eq rfl (h.test name candidate)
  streaming name _ hleaves _ := .of_remaining_eq rfl (h.streaming name hleaves)
  performing hq _ _ hlinked := .performing (h.performing hq) hlinked

/-! ## Catalogs -/

/-- What calls always failing comes to is a failure without a trace. -/
theorem Registry.failing_accounting (reason : String) : (failing reason).Accounting where
  test _ _ := rfl
  streaming _ _ h := by cases h
  performing h input := by
    cases h
    exact ⟨0, input.drop_zero.symm, by simp⟩

namespace Declaration

variable {queries : Registry} (name : String) (declaration : Declaration)

/-- A test of a candidate starts without a working set, so that there is nothing to pull on. -/
theorem matching?_accounting (hqueries : queries.Accounting) {query : MatchQuery}
    (h : declaration.matching? name queries = some query) (candidate : Value) :
    (query.test candidate).trace.pulls = 0 := by
  cases declaration with
  | byId item refused =>
      obtain rfl := Option.some.inj h
      rfl
  | matching driver =>
      obtain rfl := Option.some.inj h
      show (driver.test queries candidate).trace.pulls = 0
      rcases hcheck : driver.check with e | _
      · rw [driver.test_eq_of_check_eq_error hcheck]
        rfl
      · obtain ⟨n, -, hpulls⟩ := driver.accepts_obeys queries hqueries.discipline candidate .initial
        unfold MatchDriver.test
        rw [hcheck]
        exact hpulls.trans (by rw [State.remaining]; simp [State.initial])
  | fromMajor least => cases h
  | collection driver => cases h

/-- A collection driver makes its input its working set. -/
theorem sequence?_accounting (hqueries : queries.Accounting)
    {perform : Tape → Reading (List Value)}
    (h : declaration.sequence? name queries = some (.collecting perform)) (input : Tape) :
    (perform input).Accounts input := by
  cases declaration with
  | collection driver =>
      cases h
      rcases hcheck : driver.check with e | _
      · rw [driver.perform_eq_of_check_eq_error queries hcheck]
        exact ⟨0, input.drop_zero.symm, by simp⟩
      · have hbody : Source.Obeys hqueries.discipline
            (driver.body.source (driver.context queries)) :=
          @Expr.source_obeys (driver.context queries) hqueries.discipline driver.body
        obtain ⟨n, hrest, hpulls⟩ := hbody.collect ⟨[], .available input⟩
        rw [driver.perform_eq_bracket_reading queries hcheck]
        refine ⟨n, hrest, ?_⟩
        show (driver.setup ++ _ ++ driver.teardown).pulls = _
        rw [Trace.pulls_append, Trace.pulls_append, Prepared.pulls_setup, Prepared.pulls_teardown,
          Nat.zero_add, Nat.add_zero]
        exact hpulls
  | byId item refused => cases h
  | matching driver => cases h
  | fromMajor least => cases h

end Declaration

namespace Catalog

variable (catalog : Catalog)

/-- **The query objects of a catalog pull on nothing but what they are handed**, however deep their
calls are nested. -/
theorem registry_accounting (depth : Nat) : (catalog.registry depth).Accounting := by
  induction depth with
  | zero => exact Registry.failing_accounting _
  | succ depth ih =>
      refine ⟨fun name candidate => ?_, fun name trace => ?_, fun {name perform} => ?_⟩
      · refine catalog.matching_registry_of
          (P := fun query => (query.test candidate).trace.pulls = 0)
          (fun declaration query hquery => ?_) fun reason => ?_
        · exact declaration.matching?_accounting name ih hquery candidate
        · exact (Registry.failing_accounting reason).test name candidate
      · refine catalog.sequence_registry_of (P := fun query => query.Leaves trace → trace.pulls = 0)
          (fun declaration query hquery hleaves => ?_) fun reason => ?_
        · obtain rfl | rfl := declaration.sequence?_leaves name hquery hleaves <;> rfl
        · exact (Registry.failing_accounting reason).streaming name
      · refine catalog.sequence_registry_of
          (P := (· = .collecting perform → ∀ input, (perform input).Accounts input))
          (fun declaration query hquery => ?_) fun reason => ?_
        · rintro rfl
          exact declaration.sequence?_accounting name ih hquery
        · exact (Registry.failing_accounting reason).performing

end Catalog

end RecordQuery
