import RecordQuery.Catalog
import RecordQuery.Proofs.Driver.Brackets
import RecordQuery.Proofs.Eval.Contexts

/-!
# Runs of nested drivers

Drivers of a catalog call one another, through references in their bodies, in literals, in
parameters, and through the sequences that they are given, which may be computed by further drivers
while they are pulled on.

* `Catalog.registry_proper`: the query objects of every catalog are proper, by induction on how deep
  their calls are nested.
* `Catalog.meaning_rehooked`: what announces the match drivers of a catalog is nothing that an
  expression could notice, since a match driver that is called is only tested.
* **Main statement** (`Catalog.runs_bracketed`): every performance is its setup, then what is made
  of the input, then its teardown, and what lies between is a word of complete runs.
-/

namespace RecordQuery

/-! ## Catalogs are proper -/

namespace Registry

/-- Query objects that only fail are proper: they leave no events. -/
theorem failing_proper (reason : String) : (failing reason).Proper where
  test _ _ := .nil
  streaming _ _ h := by cases h
  performing h input := by
    cases h
    exact ⟨⟨0, input.drop_zero.symm, by simp⟩, fun _ => .nil⟩

end Registry

namespace Declaration

variable {queries : Registry} (name : String) (declaration : Declaration)

/-- A declared object that tests candidates leaves nested traces when it tests. -/
theorem matching?_proper (hqueries : queries.Proper) {query : MatchQuery}
    (h : declaration.matching? name queries = some query) (candidate : Value) :
    (query.test candidate).trace.Nested := by
  cases declaration with
  | byId item refused =>
      obtain rfl := Option.some.inj h
      exact Trace.nested_singleton rfl
  | matching driver =>
      obtain rfl := Option.some.inj h
      exact driver.test_nested hqueries candidate
  | fromMajor least => cases h
  | collection driver => cases h

/-- At a step a declared object that streams announces that it performs, or leaves nothing. -/
theorem sequence?_leaves {query : SequenceQuery} {trace : Trace}
    (h : declaration.sequence? name queries = some query) (hleaves : query.Leaves trace) :
    trace = [.reached name .perform] ∨ trace = [] := by
  cases declaration with
  | fromMajor least =>
      obtain rfl := Option.some.inj h
      exact hleaves.of_passing
  | collection driver =>
      obtain rfl := Option.some.inj h
      cases hleaves
  | byId item refused => cases h
  | matching driver => cases h

/-- A declared object that reads its input at once reads it properly. -/
theorem sequence?_proper (hqueries : queries.Proper) {perform : Tape → Reading (List Value)}
    (h : declaration.sequence? name queries = some (.collecting perform)) (input : Tape) :
    (perform input).Proper input := by
  cases declaration with
  | collection driver =>
      cases h
      exact driver.perform_proper hqueries input
  | byId item refused => cases h
  | matching driver => cases h
  | fromMajor least => cases h

end Declaration

namespace Catalog

variable (catalog : Catalog)

/-- What a name of a catalog stands for as a query that tests candidates. -/
theorem matching_registry (depth : Nat) (name : String) :
    (catalog.registry (depth + 1)).matching name =
      ((Named.lookup name catalog).bind (·.matching? name (catalog.registry depth))).getD
        ((Registry.failing "no such query object").matching name) := by
  rw [registry]

/-- What it stands for as a query that takes sequences. -/
theorem sequence_registry (depth : Nat) (name : String) :
    (catalog.registry (depth + 1)).sequence name =
      ((Named.lookup name catalog).bind (·.sequence? name (catalog.registry depth))).getD
        ((Registry.failing "no such query object").sequence name) := by
  rw [registry]

/-- What holds of the objects that are declared to test candidates, and of those that always fail,
holds of every object that tests candidates one level further out. -/
theorem matching_registry_of {P : MatchQuery → Prop} {depth : Nat} {name : String}
    (hdeclared : ∀ (declaration : Declaration) (query : MatchQuery),
      declaration.matching? name (catalog.registry depth) = some query → P query)
    (hfails : ∀ reason, P ((Registry.failing reason).matching name)) :
    P ((catalog.registry (depth + 1)).matching name) := by
  rw [matching_registry]
  rcases h : (Named.lookup name catalog).bind
      (·.matching? name (catalog.registry depth)) with _ | query
  · exact hfails _
  · obtain ⟨declaration, -, hquery⟩ := Option.bind_eq_some_iff.mp h
    exact hdeclared declaration query hquery

/-- What holds of the objects that are declared to take sequences, and of those that always fail,
holds of every object that takes sequences one level further out. -/
theorem sequence_registry_of {P : SequenceQuery → Prop} {depth : Nat} {name : String}
    (hdeclared : ∀ (declaration : Declaration) (query : SequenceQuery),
      declaration.sequence? name (catalog.registry depth) = some query → P query)
    (hfails : ∀ reason, P ((Registry.failing reason).sequence name)) :
    P ((catalog.registry (depth + 1)).sequence name) := by
  rw [sequence_registry]
  rcases h : (Named.lookup name catalog).bind
      (·.sequence? name (catalog.registry depth)) with _ | query
  · exact hfails _
  · obtain ⟨declaration, -, hquery⟩ := Option.bind_eq_some_iff.mp h
    exact hdeclared declaration query hquery

/-- **The query objects of a catalog are proper**, however deep their calls are nested. -/
theorem registry_proper (depth : Nat) : (catalog.registry depth).Proper := by
  induction depth with
  | zero => exact Registry.failing_proper _
  | succ depth ih =>
      refine ⟨fun name candidate => ?_, fun name trace => ?_, fun {name perform} => ?_⟩
      · refine catalog.matching_registry_of (P := fun query => (query.test candidate).trace.Nested)
          (fun declaration query hquery => ?_) fun reason => ?_
        · exact declaration.matching?_proper name ih hquery candidate
        · exact (Registry.failing_proper reason).test name candidate
      · refine catalog.sequence_registry_of (P := fun query => query.Leaves trace → trace.Nested)
          (fun declaration query hquery hleaves => ?_) fun reason => ?_
        · obtain rfl | rfl := declaration.sequence?_leaves name hquery hleaves
          · exact Trace.nested_singleton rfl
          · exact .nil
        · exact (Registry.failing_proper reason).streaming name
      · refine catalog.sequence_registry_of
          (P := (· = .collecting perform → ∀ input, (perform input).Proper input))
          (fun declaration query hquery => ?_) fun reason => ?_
        · rintro rfl
          exact declaration.sequence?_proper name ih hquery
        · exact (Registry.failing_proper reason).performing

end Catalog

/-! ## Announcements of match drivers -/

/-- The body of a query means the same over registries that are the same to expressions. -/
theorem Prepared.meaning_congr (query : Prepared) {queries queries' : Registry}
    (h : queries.callable = queries'.callable) :
    query.body.meaning (query.context queries) = query.body.meaning (query.context queries') :=
  query.body.meaning_congr query.parameters query.translations h

/-- What a test comes to depends on what can be called, and not on what is announced. -/
theorem MatchDriver.test_congr (driver : MatchDriver) {queries queries' : Registry}
    (h : queries.callable = queries'.callable) : driver.test queries = driver.test queries' := by
  funext candidate
  unfold test accepts Expr.isTrue Expr.value
  rw [driver.meaning_congr h]

/-- So does what a performance comes to. -/
theorem CollectionDriver.perform_congr (driver : CollectionDriver) {queries queries' : Registry}
    (h : queries.callable = queries'.callable) :
    driver.perform queries = driver.perform queries' := by
  funext input
  unfold perform Expr.source
  rw [driver.meaning_congr h]

/-- What announces a match driver has no part in its test. -/
theorem MatchDriver.test_hooks (driver : MatchDriver) (hooks : Option String) :
    MatchDriver.test { driver with hooks } = driver.test := rfl

namespace Declaration

/-- The declaration with something else to announce the driver, if it is a match driver. -/
def rehooked (hooks : Option String) : Declaration → Declaration
  | .matching driver => .matching { driver with hooks }
  | declaration => declaration

variable {queries queries' : Registry} (h : queries.callable = queries'.callable)
  (hooks : Option String) (name : String) (declaration : Declaration)

include h

/-- Tests of a declared match driver do not depend on what it announces. -/
theorem test_matching?_rehooked :
    ((declaration.rehooked hooks).matching? name queries).map MatchQuery.test =
      (declaration.matching? name queries').map MatchQuery.test := by
  cases declaration with
  | matching driver =>
      show some (MatchDriver.test { driver with hooks } queries) = some (driver.test queries')
      rw [driver.test_hooks, driver.test_congr h]
  | byId item refused => rfl
  | fromMajor least => rfl
  | collection driver => rfl

/-- A declared collection driver does not depend on what match drivers announce. -/
theorem sequence?_rehooked :
    (declaration.rehooked hooks).sequence? name queries =
      declaration.sequence? name queries' := by
  cases declaration with
  | collection driver =>
      show some (driver.toQuery queries) = some (driver.toQuery queries')
      unfold CollectionDriver.toQuery
      rw [driver.perform_congr h]
  | byId item refused => rfl
  | fromMajor least => rfl
  | matching driver => rfl

end Declaration

namespace Catalog

variable (catalog : Catalog)

/-- The catalog with something else to announce each match driver. -/
def rehooked (hooks : String → Option String) : Catalog :=
  catalog.map fun entry => (entry.1, entry.2.rehooked (hooks entry.1))

/-- A catalog with other announcements has the same names. -/
theorem lookup_rehooked (hooks : String → Option String) (name : String) :
    Named.lookup name (catalog.rehooked hooks) =
      (Named.lookup name catalog).map (·.rehooked (hooks name)) := by
  induction catalog with
  | nil => rfl
  | cons entry rest ih =>
      obtain ⟨other, declaration⟩ := entry
      unfold rehooked at ih ⊢
      rw [List.map_cons, Named.lookup, Named.lookup, ih]
      by_cases hname : other = name
      · simp [hname]
      · simp [hname]

/-- Expressions see no more of a match driver than its test, which is not announced. -/
theorem callable_registry_rehooked (hooks : String → Option String) (depth : Nat) :
    ((catalog.rehooked hooks).registry depth).callable = (catalog.registry depth).callable := by
  induction depth with
  | zero => rw [registry, registry]
  | succ depth ih =>
      refine Registry.callable_eq (fun name => ?_) (funext fun name => ?_)
      · rw [matching_registry, matching_registry, lookup_rehooked]
        rcases Named.lookup name catalog with _ | declaration
        · rw [Option.map_none, Option.bind_none, Option.bind_none]
        · have htest := declaration.test_matching?_rehooked ih (hooks name) name
          rw [Option.map_some, Option.bind_some, Option.bind_some]
          rw [← Option.getD_map MatchQuery.test, ← Option.getD_map MatchQuery.test, htest]
      · rw [sequence_registry, sequence_registry, lookup_rehooked]
        rcases Named.lookup name catalog with _ | declaration
        · rw [Option.map_none, Option.bind_none, Option.bind_none]
        · have hsequence := declaration.sequence?_rehooked ih (hooks name) name
          rw [Option.map_some, Option.bind_some, Option.bind_some, hsequence]

/-- **A match driver that is called is only tested**: what announces it is nothing that an
expression could notice. -/
theorem meaning_rehooked (hooks : String → Option String) (depth : Nat) (parameters : Parameters)
    (translations : Option Translations) (e : Expr) :
    e.meaning ⟨parameters, translations, (catalog.rehooked hooks).registry depth⟩ =
      e.meaning ⟨parameters, translations, catalog.registry depth⟩ :=
  e.meaning_congr parameters translations (catalog.callable_registry_rehooked hooks depth)

end Catalog

/-! ## Sequences that are handed on -/

/-- What an expression over proper query objects hands on nests when it is pulled on, if what is
left of the working set does. -/
theorem Expr.nested_tapeOf {queries : Registry} (hqueries : queries.Proper)
    (parameters : Parameters) (translations : Option Translations) (e : Expr) (fuel : Nat)
    (cursor : Cursor) {state : State} (hstate : state.remaining.Nested) :
    (Source.tapeOf ((e.source ⟨parameters, translations, queries⟩).pullsWithin fuel cursor
      state)).Nested := by
  have hsource : Source.Obeys hqueries.nesting (e.source ⟨parameters, translations, queries⟩) :=
    @Expr.source_obeys ⟨parameters, translations, queries⟩ hqueries.nesting e
  have hlinked := hsource.linked_pullsWithin fuel cursor state
  exact Source.nested_tapeOf hlinked hstate

/-! ## All runs -/

/-- How a match driver performs over an input. -/
structure MatchDriver.RunsBracketed (driver : MatchDriver) (queries : Registry) (input : Tape) :
    Prop where
  /-- With sufficient parameters it pulls on its input and tests each candidate when it is pulled,
  between its setup and its teardown. What lies there is a word of complete runs, provided that what
  the pulls leave is. -/
  performs : driver.check = .ok () →
    ∃ pulls, (driver.perform queries input).Bracketed driver.setup
        (input.testing (driver.test queries) pulls) driver.teardown input pulls ∧
      (input.Nested → (input.testing (driver.test queries) pulls).Nested)
  /-- Otherwise it pulls nothing and leaves no event, also when it is asked about one candidate. -/
  refused : ∀ e, driver.check = .error e →
    driver.perform queries input = ⟨.error e, input, []⟩ ∧
      ∀ candidate, driver.test queries candidate = ⟨.error e, []⟩

/-- How a collection driver performs over an input. -/
structure CollectionDriver.RunsBracketed (driver : CollectionDriver) (queries : Registry)
    (input : Tape) : Prop where
  /-- With sufficient parameters it runs its body over the input, between its setup and its teardown.
  What lies there is a word of complete runs, provided that what the pulls leave is. -/
  performs : driver.check = .ok () →
    ∃ pulls, (driver.perform queries input).Bracketed driver.setup
        (driver.reading queries input).trace driver.teardown input pulls ∧
      (input.Nested → (driver.reading queries input).trace.Nested)
  /-- Otherwise it pulls nothing and leaves no event. -/
  refused : ∀ e, driver.check = .error e → driver.perform queries input = ⟨.error e, input, []⟩

/-- A query that a test makes pulls and tests between its setup and its teardown. What lies there is
a word of complete runs, provided that what tests and pulls leave is. -/
def MatchQuery.RunsBracketed (setup : Trace) (test : Value → Verdict) (teardown : Trace)
    (input : Tape) : Prop :=
  ∃ pulls, ((MatchQuery.ofTest setup test teardown).perform input).Bracketed setup
      (input.testing test pulls) teardown input pulls ∧
    ((∀ candidate, (test candidate).trace.Nested) → input.Nested →
      (input.testing test pulls).Nested)

/-- What an expression computes when it is pulled on is an input that nests, if what is left of its
own working set does. -/
def Registry.HandsOnNested (queries : Registry) : Prop :=
  ∀ (parameters : Parameters) (translations : Option Translations) (e : Expr) (fuel : Nat)
    (cursor : Cursor) (state : State), state.remaining.Nested →
      (Source.tapeOf ((e.source ⟨parameters, translations, queries⟩).pullsWithin fuel cursor
        state)).Nested

/-- Every match driver runs between its announcements. -/
theorem MatchDriver.runsBracketed {queries : Registry} (hqueries : queries.Proper)
    (driver : MatchDriver) (input : Tape) : driver.RunsBracketed queries input where
  performs hcheck := by
    obtain ⟨pulls, hbracketed⟩ := driver.perform_bracketed queries hcheck input
    exact ⟨pulls, hbracketed, fun hinput => hinput.testing (driver.test_nested hqueries) pulls⟩
  refused e hcheck :=
    ⟨driver.perform_eq_of_check_eq_error queries hcheck input,
      driver.test_eq_of_check_eq_error hcheck⟩

/-- So does every collection driver. -/
theorem CollectionDriver.runsBracketed {queries : Registry} (hqueries : queries.Proper)
    (driver : CollectionDriver) (input : Tape) : driver.RunsBracketed queries input where
  performs hcheck := by
    obtain ⟨pulls, hbracketed⟩ := driver.perform_bracketed hqueries hcheck input
    exact ⟨pulls, hbracketed, (driver.reading_proper hqueries input).nested⟩
  refused e hcheck := driver.perform_eq_of_check_eq_error queries hcheck input

/-- **Setup and teardown stand around every run**, on success and wherever it fails. Over query
objects that are proper, as those of every catalog are, however deep their calls are nested:

* a match driver whose parameters suffice announces its setup, pulls on its input and tests each
  candidate when it is pulled, and announces its teardown; a query that a test makes does the same
  with its own setup and teardown, and a collection driver with a run of its body in between;
* the pulls on the input lie between setup and teardown, and what lies there is a word of complete
  runs, provided that what the pulls leave is; this holds of inputs from a source, of values at
  hand, and of what an expression computes when it is pulled on;
* a driver whose parameters do not suffice pulls nothing and leaves no event, also when it is
  asked about one candidate;
* a match driver that is called announces nothing: giving the match drivers of a catalog anything
  else to announce makes no difference to any expression. -/
theorem Catalog.runs_bracketed :
    (∀ (catalog : Catalog) (depth : Nat), (catalog.registry depth).Proper) ∧
      (∀ queries : Registry, queries.Proper →
        (∀ (driver : MatchDriver) (input : Tape), driver.RunsBracketed queries input) ∧
          (∀ (driver : CollectionDriver) (input : Tape), driver.RunsBracketed queries input) ∧
          queries.HandsOnNested) ∧
      (∀ (setup : Trace) (test : Value → Verdict) (teardown : Trace) (input : Tape),
        MatchQuery.RunsBracketed setup test teardown input) ∧
      (∀ items : List Item, (Tape.ofItems items).Nested) ∧
      (∀ values : List Value, (Tape.ofValues values).Nested) ∧
      ∀ (catalog : Catalog) (hooks : String → Option String) (depth : Nat)
        (parameters : Parameters) (translations : Option Translations) (e : Expr),
        e.meaning ⟨parameters, translations, (catalog.rehooked hooks).registry depth⟩ =
          e.meaning ⟨parameters, translations, catalog.registry depth⟩ := by
  refine ⟨Catalog.registry_proper, fun queries hqueries => ?_, ?_, Tape.nested_ofItems,
    Tape.nested_ofValues, Catalog.meaning_rehooked⟩
  · refine ⟨MatchDriver.runsBracketed hqueries, CollectionDriver.runsBracketed hqueries, ?_⟩
    intro parameters translations e fuel cursor state hstate
    exact e.nested_tapeOf hqueries parameters translations fuel cursor hstate
  · intro setup test teardown input
    obtain ⟨pulls, hbracketed⟩ := MatchQuery.ofTest_perform_bracketed setup test teardown input
    exact ⟨pulls, hbracketed, fun htest hinput => hinput.testing htest pulls⟩

/-- A collection driver calls a match driver on each unit, and the second unit fails the call. Only
the collection driver is announced, around two pulls. The match driver itself lacks its parameter
where it is given none, and then leaves no event. -/
theorem Catalog.runs_bracketed_ranks :
    let catalog : Catalog := [("low", .matching (.lowRanks ⟨[], [("bound", .integer 2)]⟩))]
    let queries := catalog.registry 1
    let driver : CollectionDriver :=
      { body := Expr.everything.select
          ⟨"x", .query (.literal (.query (.matching "low"))) (some (.var "x"))⟩
        parameters := .none
        hooks := some "all" }
    let input : Tape := .ofItems [.ok (MatchDriver.rankedUnit (.integer 1)),
      .ok (MatchDriver.rankedUnit (.string "a")), .ok (MatchDriver.rankedUnit (.integer 0))]
    let missing : QueryError := .parameterMissing (.named "bound") 0
    queries.Proper ∧ driver.check = .ok () ∧
      (∃ pulls made, (driver.perform queries input).Bracketed driver.setup made driver.teardown input
          pulls ∧ made.Nested) ∧
      (driver.perform queries input).trace =
        [.reached "all" .setup, .pulled, .pulled, .reached "all" .teardown] ∧
      (MatchDriver.lowRanks .none).perform queries input = ⟨.error missing, input, []⟩ ∧
      driver.body.meaning ⟨.none, none, (catalog.rehooked some).registry 1⟩ =
        driver.body.meaning ⟨.none, none, queries⟩ := by
  intro catalog queries driver input missing
  obtain ⟨hproper, hruns, -, hitems, -, hhooks⟩ := Catalog.runs_bracketed
  have hqueries : queries.Proper := hproper catalog 1
  obtain ⟨hmatching, hcollecting, -⟩ := hruns queries hqueries
  obtain ⟨pulls, hbracketed, hnested⟩ := (hcollecting driver input).performs rfl
  exact ⟨hqueries, rfl, ⟨pulls, _, hbracketed, hnested (hitems _)⟩, by decide +kernel,
    ((hmatching (.lowRanks .none) input).refused missing rfl).1, hhooks catalog some 1 _ _ _⟩

end RecordQuery
