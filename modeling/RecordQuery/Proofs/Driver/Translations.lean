import RecordQuery.Catalog
import RecordQuery.Proofs.Driver.Brackets
import RecordQuery.Proofs.Eval.Contexts
import RecordQuery.Proofs.Eval.Provenance

/-!
# Only translated properties depend on the locale

Whether a run is given translations is decided before it by looking at the tree
(`Expr.needsTranslations`). A run comes to the nodes of the tree in its own order, in the bodies of
lambdas, and long after a sequence was opened; it never comes to a node that is not in the tree, and
no node but a translated property reads the translations.

* `Expr.drawn_of_untranslated`: a tree without translated properties means the same with any
  translations and with none (`Expr.meaning_withTranslations`), so it looks nothing up.
* `Prepared.meaning_context`: so leaving the translations out of a run that does not need them makes
  no difference to it.
* **Main statement** (`Expr.localized_only_by_translated`): both of these for trees and drivers, and
  that a run that does not need translations looks none up.

Query objects have translations of their own. They are the same on both sides.
-/

namespace RecordQuery

/-! ## Trees -/

namespace Expr

variable {ctx : Context}

/-- Runs of trees that mean the same leave the same traces. -/
theorem Leaves.of_meaning_eq {e : Expr} {ctx' : Context} (heq : e.meaning ctx' = e.meaning ctx)
    {state : State} {trace : Trace} (h : e.Leaves ctx state trace) : e.Leaves ctx' state trace := by
  have hvalue : e.value ctx' = e.value ctx := congrArg Meaning.value heq
  have hsource : e.source ctx' = e.source ctx := congrArg Meaning.source heq
  cases h with
  | value h => exact .value (hvalue ▸ h)
  | isTrue h => exact .isTrue (by rw [Expr.isTrue, hvalue]; exact h)
  | start h => exact .start (hsource ▸ h)
  | advance cursor h => exact .advance cursor (hsource ▸ h)
  | collect h => exact .collect (hsource ▸ h)

/-- A tree without translated properties looks nothing up: each of its events comes from the working
set or from a query object. -/
theorem drawn_of_untranslated {e : Expr} (h : e.needsTranslations = false) {state : State}
    {trace : Trace} (hleaves : e.Leaves ctx state trace) {event : Event} (hmem : event ∈ trace) :
    event ∈ state.remaining.events ∨ ctx.queries.Emits event := by
  -- with no translations at all the run is the same, and there is nothing to look up
  have hnone : e.Leaves (ctx.withTranslations none) state trace :=
    hleaves.of_meaning_eq (meaning_withTranslations h)
  refine (drawn_of_leaves hnone hmem).imp_right fun hcause => hcause.resolve_right ?_
  rintro ⟨translations, htranslations, -⟩
  cases htranslations

end Expr

/-! ## Drivers -/

/-- The context that carries the translations of a query, whether its body needs them or not. -/
def Prepared.carrying (query : Prepared) (queries : Registry) : Context :=
  ⟨query.parameters,
    query.support.map fun support => ⟨support, query.config.locale, query.config.fallback⟩, queries⟩

/-- **Translations that a run does not need are not missed.** -/
theorem Prepared.meaning_context (query : Prepared) (queries : Registry) :
    query.body.meaning (query.context queries) = query.body.meaning (query.carrying queries) := by
  rcases hneeds : query.body.needsTranslations with _ | _
  · have hcontext : query.context queries =
        (query.carrying queries).withTranslations query.translations := rfl
    rw [hcontext, Expr.meaning_withTranslations hneeds]
  · unfold context carrying translations
    rw [hneeds]
    rfl

/-- A query that does not need translations is given none, whatever its configuration. -/
theorem Prepared.context_of_untranslated {query : Prepared}
    (h : query.body.needsTranslations = false) (config : QueryConfig)
    (support : Option (String → String → Option String)) (queries : Registry) :
    Prepared.context { query with config, support } queries = query.context queries := by
  unfold context translations
  rw [h]
  rfl

namespace MatchDriver

/-- A match driver without translated properties is one query object, however it is configured. -/
theorem toQuery_of_untranslated {driver : MatchDriver} (h : driver.body.needsTranslations = false)
    (config : QueryConfig) (support : Option (String → String → Option String))
    (queries : Registry) :
    MatchDriver.toQuery { driver with config, support } queries = driver.toQuery queries := by
  have haccepts : accepts { driver with config, support } queries = driver.accepts queries := by
    funext candidate
    unfold accepts
    rw [Prepared.context_of_untranslated h config support queries]
  have htest : test { driver with config, support } queries = driver.test queries := by
    funext candidate
    rw [test, test, haccepts]
    rfl
  have hperform : perform { driver with config, support } queries = driver.perform queries := by
    have hnext : testNext { driver with config, support } queries = driver.testNext queries := by
      funext state candidate
      rw [testNext, testNext, haccepts]
    funext input
    rw [perform, perform, hnext]
    rfl
  rw [toQuery, toQuery, htest, hperform]
  rfl

/-- A driver tests a candidate of its shape in the context that carries its translations. -/
theorem test_eq_carrying (driver : MatchDriver) (queries : Registry)
    (hcheck : driver.check = .ok ()) {candidate : Value} (h : driver.shape.accepts candidate = true) :
    driver.test queries candidate =
      let o := (driver.body.isTrue (driver.carrying queries)).run
        ⟨[(Expr.thisName, candidate)], .unset⟩
      ⟨o.value, o.trace⟩ := by
  rw [driver.test_eq_of_accepts queries hcheck h]
  unfold Expr.isTrue Expr.value
  rw [driver.meaning_context queries]

end MatchDriver

namespace CollectionDriver

/-- A collection driver without translated properties is one query however it is configured. -/
theorem toQuery_of_untranslated {driver : CollectionDriver}
    (h : driver.body.needsTranslations = false) (config : QueryConfig)
    (support : Option (String → String → Option String)) (queries : Registry) :
    CollectionDriver.toQuery { driver with config, support } queries = driver.toQuery queries := by
  have hcontext := Prepared.context_of_untranslated h config support queries
  unfold toQuery perform
  rw [hcontext]
  rfl

/-- A driver evaluates its body in the context that carries its translations. -/
theorem perform_eq_carrying (driver : CollectionDriver) (queries : Registry)
    (hcheck : driver.check = .ok ()) (input : Tape) :
    driver.perform queries input =
      let o := (driver.body.source (driver.carrying queries)).collect.run ⟨[], .available input⟩
      (⟨o.value, o.state.remaining, o.trace⟩ : Reading _).bracket driver.setup driver.teardown := by
  rw [driver.perform_eq_bracket_reading queries hcheck]
  unfold reading Expr.source
  rw [driver.meaning_context queries]

end CollectionDriver

/-! ## All of them -/

/-- **Only translated properties depend on the locale.**

* A tree without any means the same in contexts that differ in their translations only, be they
  present or absent: its value, what opening it gives, and every pull. No event of its runs is a
  lookup of its own: each comes from the working set or from a query object.
* So a driver whose body has none is the same query whatever its configuration and its texts.
* Every driver, and so one whose body has such a property anywhere, in the body of a lambda too,
  behaves as an evaluation in the context that carries its translations, its locale and its
  fallback. -/
theorem Expr.localized_only_by_translated :
    (∀ e : Expr, e.needsTranslations = false → ∀ ctx : Context,
        (∀ translations, e.meaning (ctx.withTranslations translations) = e.meaning ctx) ∧
          ∀ state trace, e.Leaves ctx state trace → ∀ event ∈ trace,
            event ∈ state.remaining.events ∨ ctx.queries.Emits event) ∧
      (∀ driver : MatchDriver, driver.body.needsTranslations = false →
        ∀ config support queries,
          MatchDriver.toQuery { driver with config, support } queries = driver.toQuery queries) ∧
      (∀ driver : CollectionDriver, driver.body.needsTranslations = false →
        ∀ config support queries,
          CollectionDriver.toQuery { driver with config, support } queries =
            driver.toQuery queries) ∧
      (∀ driver : MatchDriver, driver.check = .ok () → ∀ queries,
        (∀ candidate, driver.shape.accepts candidate = true →
            driver.test queries candidate =
              let o := (driver.body.isTrue (driver.carrying queries)).run
                ⟨[(thisName, candidate)], .unset⟩
              ⟨o.value, o.trace⟩) ∧
          ∀ input, driver.perform queries input =
            (input.siftEach (driver.test queries)).bracket driver.setup driver.teardown) ∧
      ∀ driver : CollectionDriver, driver.check = .ok () → ∀ queries input,
        driver.perform queries input =
          let o := (driver.body.source (driver.carrying queries)).collect.run
            ⟨[], .available input⟩
          (⟨o.value, o.state.remaining, o.trace⟩ : Reading _).bracket driver.setup
            driver.teardown := by
  refine ⟨fun e he ctx => ⟨fun _ => meaning_withTranslations he, ?_⟩, ?_, ?_, ?_, ?_⟩
  · intro state trace hleaves event hmem
    exact drawn_of_untranslated he hleaves hmem
  · exact fun driver hbody => MatchDriver.toQuery_of_untranslated hbody
  · exact fun driver hbody => CollectionDriver.toQuery_of_untranslated hbody
  · intro driver hcheck queries
    refine ⟨fun candidate hshape => ?_, fun input => ?_⟩
    · exact driver.test_eq_carrying queries hcheck hshape
    · exact driver.perform_eq_bracket_siftEach queries hcheck input
  · exact fun driver hcheck queries => driver.perform_eq_carrying queries hcheck

/-- A tree without translated properties means the same in German and without a language, and a
driver of it is one query however it is configured. A driver that collects translated names runs in
the context of its translations: of two records whose names are keys, there is a text for the first,
and the second keeps its name. -/
theorem Expr.localized_only_by_translated_names :
    let texts : String → String → Option String := fun locale key =>
      if locale = "de" ∧ key = "part" then some "Teil" else none
    let collecting (body : Expr) : CollectionDriver :=
      { body, parameters := .none, config := ⟨"de_CH", true⟩, support := some texts }
    let names := everything.filtered .collect (some ⟨"x", translated (.var "x") "name"⟩)
    let ctx : Context := ⟨.none, none, Catalog.queries []⟩
    let input : Tape := .ofValues
      [.record "unit" [("name", .string "%part")], .record "unit" [("name", .string "%axle")]]
    everything.needsTranslations = false ∧
      everything.meaning (ctx.withTranslations (some ⟨texts, "de_CH", true⟩)) =
        everything.meaning ctx ∧
      CollectionDriver.toQuery { collecting everything with config := ⟨"fr", false⟩, support := none }
          ctx.queries = (collecting everything).toQuery ctx.queries ∧
      (collecting names).check = .ok () ∧
      (collecting names).perform ctx.queries input =
        ⟨.ok [.string "Teil", .string "%axle"], .spent,
          [.lookup "de_CH" "part", .lookup "de" "part", .lookup "de_CH" "axle",
            .lookup "de" "axle"]⟩ := by
  intro texts collecting names ctx input
  have heverything : everything.needsTranslations = false := by decide
  have hcheck : (collecting names).check = .ok () := rfl
  obtain ⟨hmeaning, -, hdriver, -, hcarrying⟩ := localized_only_by_translated
  refine ⟨heverything, (hmeaning everything heverything ctx).1 _,
    hdriver (collecting everything) heverything ⟨"fr", false⟩ none ctx.queries, hcheck, ?_⟩
  refine (hcarrying (collecting names) hcheck ctx.queries input).trans ?_
  subst input names collecting texts ctx
  exact rfl

end RecordQuery
