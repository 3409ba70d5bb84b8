/-!
# Locales

A locale names a language and, after separators, what narrows it: `sr-Latn-RS`, `de_CH`. A text
that is wanted for a locale may stand under the locale itself or under any of its stems, the
beginnings that end just before a separator.
-/

namespace RecordQuery.Locale

/-! ## Candidates -/

/-- The characters that separate the parts of a locale. -/
def isSeparator (c : Char) : Bool :=
  c = '_' || c = '-'

/-- The beginnings of a locale that end just before one of its separators, longest first. -/
def stems : List Char → List (List Char)
  | [] => []
  | c :: rest => (stems rest).map (c :: ·) ++ (if isSeparator c then [[]] else [])

/-- The locales under which a text for the given locale may stand, from the most specific on. -/
def chain (locale : String) : List String :=
  locale :: (stems locale.toList).map String.ofList

example : chain "sr-Latn-RS" = ["sr-Latn-RS", "sr-Latn", "sr"] := by decide +kernel

/-! ## The environment -/

/-- The environment variables that may name a locale, the first that does decides. -/
def environmentNames : List String := ["LC_ALL", "LC_MESSAGES", "LANG"]

/-- The locale where the environment names none. -/
def default : String := "en"

/-- The locale in the value of an environment variable: the text before the encoding or the
modifier. The locales of a bare system carry no language. -/
def ofVariable? (value : String) : Option String :=
  let locale := String.ofList (value.toList.takeWhile fun c => c ≠ '.' && c ≠ '@')
  if locale ∈ ["", "C", "POSIX"] then none else some locale

/-- The locale that an environment asks for. -/
def ofEnvironment (environment : String → Option String) : String :=
  (environmentNames.findSome? fun name => (environment name).bind ofVariable?).getD default

end RecordQuery.Locale
