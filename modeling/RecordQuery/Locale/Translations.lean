import RecordQuery.Locale.Chain
import RecordQuery.Named

/-!
# Translations

Texts by locale and key. A `TranslationTable` holds them; `Translations` is such a facility bound to
the locale of a caller. `Translations.lookups` are the candidates it tries for a key, the most
specific first and none after the first hit, and `Translations.text?` is the text of that hit.
-/

namespace RecordQuery

/-! ## Tables -/

/-- Texts by locale, then by key. -/
structure TranslationTable where
  /-- The texts of each locale. -/
  locales : List (String × List (String × String))
deriving Inhabited

namespace TranslationTable

/-- The table without texts. -/
def empty : TranslationTable := ⟨[]⟩

/-- Puts a text under a locale and a key, in place of the one that is there. -/
def insert (table : TranslationTable) (locale key text : String) : TranslationTable :=
  let entries := (Named.lookup locale table.locales).getD []
  ⟨Named.put locale (Named.put key text entries) table.locales⟩

/-- The text under a locale and a key. -/
def text? (table : TranslationTable) (locale key : String) : Option String :=
  (Named.lookup locale table.locales).bind (Named.lookup key)

end TranslationTable

/-! ## Translations for a caller -/

/-- A source of texts for one locale. -/
structure Translations where
  /-- The text under a locale and a key. -/
  support : String → String → Option String
  /-- The locale of the caller. -/
  locale : String
  /-- Whether a key without a text stands for itself. -/
  fallback : Bool

/-- Of several candidates, those that are tried: all up to the first with a text. -/
def triedUntil (text? : String → Option String) : List String → List String
  | [] => []
  | locale :: rest =>
    if (text? locale).isSome then [locale] else locale :: triedUntil text? rest

namespace Translations

/-- The locales that are tried for a key. -/
def lookups (translations : Translations) (key : String) : List String :=
  triedUntil (translations.support · key) (Locale.chain translations.locale)

/-- The text of the most specific locale that has one. -/
def text? (translations : Translations) (key : String) : Option String :=
  (Locale.chain translations.locale).findSome? (translations.support · key)

end Translations

end RecordQuery
