import RecordQuery.Json.Reader
import RecordQuery.Locale.Chain

/-!
# Configuration of queries

The locale that texts are looked up for, and what becomes of a key without a text. Both have a
default, the locale from the environment; a JSON document may set either.
-/

namespace RecordQuery

/-- How a query looks translated properties up. -/
structure QueryConfig where
  /-- The locale of the caller, such as `de_CH`. -/
  locale : String
  /-- Whether a key without a text stands for itself. If not, it becomes the absent value. -/
  fallback : Bool
deriving DecidableEq, Repr, Inhabited

namespace QueryConfig

open Json

/-! ## Defaults -/

/-- The configuration of an environment. -/
def ofEnvironment (environment : String → Option String) : QueryConfig :=
  ⟨Locale.ofEnvironment environment, true⟩

/-- The configuration of an environment that names no locale. -/
def standard : QueryConfig :=
  ofEnvironment fun _ => none

/-! ## Settings -/

/-- The setting of a configuration that a value gives to its locale. -/
def setLocale? (config : QueryConfig) : Draft → Option QueryConfig
  | .string glyphs => (fun locale => { config with locale }) <$> text? glyphs
  | _ => none

/-- The setting of a configuration that a value gives to its fallback. -/
def setFallback? (config : QueryConfig) : Draft → Option QueryConfig
  | .boolean fallback => some { config with fallback }
  | _ => none

/-- Takes the members of an object in. A key that is no setting is passed over, whatever its value;
a setting may be given once. -/
def setMembers? (config : QueryConfig) (hasLocale hasFallback : Bool) :
    List (List Glyph × Draft) → Option QueryConfig
  | [] => some config
  | (glyphs, value) :: rest => do
    let key ← text? glyphs
    if key = "locale" then
      if hasLocale then none
      else (← config.setLocale? value).setMembers? true hasFallback rest
    else if key = "translation_fallback" then
      if hasFallback then none
      else (← config.setFallback? value).setMembers? hasLocale true rest
    else config.setMembers? hasLocale hasFallback rest

/-- Takes a document in: an object of settings, or an array with the locale and the fallback, in
this order, of which the last or both may be left out. -/
def setDraft? (config : QueryConfig) : Draft → Option QueryConfig
  | .object members => config.setMembers? false false members
  | .array [] => some config
  | .array [locale] => config.setLocale? locale
  | .array [locale, fallback] => config.setLocale? locale >>= (·.setFallback? fallback)
  | _ => none

/-- The configuration that a JSON text makes of a default. -/
def parse? (default : QueryConfig) (text : String) : Option QueryConfig :=
  Draft.parse? text >>= default.setDraft?

end QueryConfig

end RecordQuery
