import RecordQuery.Driver.Config
import RecordQuery.Eval.Meaning

/-!
# Prepared queries

A query that is ready to run: its body, its parameters, and what a run needs beside them. Parameters
are checked before every run. Translations are attached to a run only if the body can look one up.
-/

namespace RecordQuery

/-- A query with all that it takes to run it. -/
structure Prepared where
  /-- The query itself. -/
  body : Expr
  /-- The values of its parameters. -/
  parameters : Parameters
  /-- How translations are looked up. -/
  config : QueryConfig := .standard
  /-- The texts, by locale and key. -/
  support : Option (String → String → Option String) := none
  /-- The name under which runs are announced before and after, if they are. -/
  hooks : Option String := none

namespace Prepared

/-- Whether the parameters suffice. -/
def check (query : Prepared) : Except QueryError Unit :=
  query.parameters.check query.body

/-- The translations that a run gets. -/
def translations (query : Prepared) : Option Translations :=
  if query.body.needsTranslations then
    query.support.map fun support => ⟨support, query.config.locale, query.config.fallback⟩
  else none

/-- The context of a run. -/
def context (query : Prepared) (queries : Registry) : Context :=
  ⟨query.parameters, query.translations, queries⟩

/-- What announces the beginning of a run. -/
def setup (query : Prepared) : Trace :=
  (query.hooks.map (Event.reached · .setup)).toList

/-- What announces the end of a run. -/
def teardown (query : Prepared) : Trace :=
  (query.hooks.map (Event.reached · .teardown)).toList

end Prepared

end RecordQuery
