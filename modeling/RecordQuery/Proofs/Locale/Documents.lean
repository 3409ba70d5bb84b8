import RecordQuery.Proofs.Json.Canonical
import RecordQuery.Records.Load

/-!
# Documents of translations

A catalog of translations is an object of locales, each of which is an object of texts
(`Json.isCatalog`). It is read by two nested loops, which stop at the first value that is not what it
should be. What was read so far is dropped then, and the value is named by its keys.

* `TranslationTable.ofJson_cases`: a document is a catalog and is accepted, or it has a first fault
  in the order of keys (`Json.FirstFault`) and is refused with that fault.
* **Main statements** (`TranslationTable.parse_eq_ok_iff`, `TranslationTable.parse_eq_error_iff`): so
  a document is accepted exactly if it is a catalog, and refused with its one first fault otherwise.
* `TranslationTable.text?_of_parse`: a table that was read holds exactly the texts of its document
  (`Json.textUnder?`).
-/

namespace RecordQuery

/-! ## Catalogs -/

namespace Json

/-- Whether a value is a text. -/
def isText (json : Json) : Bool :=
  json.string?.isSome

/-- Whether a value is an object of texts. -/
def holdsTexts (json : Json) : Bool :=
  json.members?.any fun texts => texts.all fun entry => entry.2.isText

/-- Whether a document is an object of objects of texts. -/
def isCatalog (json : Json) : Bool :=
  json.members?.any fun locales => locales.all fun entry => entry.2.holdsTexts

/-- The text that a document holds for a locale and a key. -/
def textUnder? (json : Json) (locale key : String) : Option String := do
  let texts ← Named.lookup locale (← json.members?)
  let text ← Named.lookup key (← texts.members?)
  text.string?

/-! ## First faults -/

/-- The first member, in the order of keys, whose value is not as it should be. -/
structure FirstAmiss (isRight : Json → Bool) (members : List (String × Json)) (key : String)
    (value : Json) : Prop where
  /-- It is a member. -/
  mem : (key, value) ∈ members
  /-- Its value is not as it should be. -/
  amiss : isRight value = false
  /-- The values under smaller keys are. -/
  before : ∀ entry ∈ members, entry.1 < key → isRight entry.2 = true

section FirstAmiss

variable {isRight : Json → Bool} {members : List (String × Json)} {key : String} {value : Json}

/-- Where a member is amiss, not all members are right. -/
theorem FirstAmiss.all_eq_false (h : FirstAmiss isRight members key value) :
    (members.all fun entry => isRight entry.2) = false :=
  List.all_eq_false.mpr ⟨_, h.mem, Bool.not_eq_true _ ▸ h.amiss⟩

/-- At the head of members in ascending order there is none before it. -/
theorem firstAmiss_head (hascending : Ascending ((key, value) :: members))
    (h : isRight value = false) : FirstAmiss isRight ((key, value) :: members) key value where
  mem := List.mem_cons_self
  amiss := h
  before := by
    rw [List.forall_mem_cons]
    refine ⟨fun hlt => absurd hlt (lt_irrefl key), fun entry hentry hlt => ?_⟩
    exact absurd hlt (lt_asymm (List.rel_of_pairwise_cons hascending hentry))

/-- A member that is right does not hide the first one that is amiss. -/
theorem FirstAmiss.cons (h : FirstAmiss isRight members key value) {entry : String × Json}
    (hentry : isRight entry.2 = true) : FirstAmiss isRight (entry :: members) key value :=
  ⟨List.mem_cons_of_mem _ h.mem, h.amiss, List.forall_mem_cons.mpr ⟨fun _ => hentry, h.before⟩⟩

/-- There is one first member that is amiss at most. -/
theorem FirstAmiss.eq (hascending : Ascending members) {key' : String} {value' : Json}
    (h : FirstAmiss isRight members key value) (h' : FirstAmiss isRight members key' value') :
    key = key' ∧ value = value' := by
  have hkey : key = key' := by
    rcases lt_trichotomy key key' with hlt | heq | hlt
    · have hright := h'.before _ h.mem hlt
      rw [h.amiss] at hright
      cases hright
    · exact heq
    · have hright := h.before _ h'.mem hlt
      rw [h'.amiss] at hright
      cases hright
  subst hkey
  have hlookup := Named.lookup_of_mem hascending.nodup_keys h.mem
  rw [Named.lookup_of_mem hascending.nodup_keys h'.mem] at hlookup
  exact ⟨rfl, (Option.some.inj hlookup).symm⟩

end FirstAmiss

/-- What is wrong with the value under a locale. -/
inductive LocaleFault (locale : String) : Json → LoadError → Prop
  /-- It is no object. -/
  | shape {json : Json} (h : json.members? = none) : LocaleFault locale json (.notALocale locale)
  /-- A member of it is no text, and is the first of these. -/
  | text {texts : List (String × Json)} {key : String} {value : Json}
    (h : FirstAmiss isText texts key value) :
    LocaleFault locale (.object texts) (.notAText locale key)

/-- What is wrong with a document first, in the order of locales and then of keys. -/
inductive FirstFault : Json → LoadError → Prop
  /-- It is no object. -/
  | shape {json : Json} (h : json.members? = none) : FirstFault json .notACatalog
  /-- The value under a locale is no object of texts, and is the first of these. -/
  | locale {locales : List (String × Json)} {locale : String} {value : Json} {e : LoadError}
    (h : FirstAmiss holdsTexts locales locale value) (hvalue : LocaleFault locale value e) :
    FirstFault (.object locales) e

/-- The texts of a locale have one first fault at most. -/
theorem LocaleFault.eq {locale : String} {json : Json} {e e' : LoadError}
    (hcanonical : json.Canonical) (h : LocaleFault locale json e)
    (h' : LocaleFault locale json e') : e = e' := by
  cases h with
  | shape h =>
      cases h' with
      | shape _ => rfl
      | text _ => cases h
  | text h =>
      cases h' with
      | shape h' => cases h'
      | text h' => rw [(h.eq (canonical_object.mp hcanonical).1 h').1]

/-- A document has one first fault at most. -/
theorem FirstFault.eq {json : Json} {e e' : LoadError} (hcanonical : json.Canonical)
    (h : FirstFault json e) (h' : FirstFault json e') : e = e' := by
  cases h with
  | shape h =>
      cases h' with
      | shape _ => rfl
      | locale _ _ => cases h
  | locale h hvalue =>
      cases h' with
      | shape h' => cases h'
      | locale h' hvalue' =>
          obtain ⟨hascending, hmembers⟩ := canonical_object.mp hcanonical
          obtain ⟨rfl, rfl⟩ := h.eq hascending h'
          exact hvalue.eq (hmembers _ h.mem) hvalue'

/-- A catalog has no fault. -/
theorem FirstFault.isCatalog_eq_false {json : Json} {e : LoadError} (h : FirstFault json e) :
    json.isCatalog = false := by
  unfold isCatalog
  cases h with
  | shape h => rw [h]; rfl
  | locale h _ => exact h.all_eq_false

end Json

/-! ## Reading -/

namespace TranslationTable

open Json

/-- The texts of a locale are added, or the first member that is no text is named. -/
theorem addTexts_cases (locale : String) (table : TranslationTable)
    {texts : List (String × Json)} (hascending : Ascending texts) :
    (∃ table', addTexts locale table texts = .ok table' ∧
        (texts.all fun entry => entry.2.isText) = true) ∨
      ∃ key value, FirstAmiss isText texts key value ∧
        addTexts locale table texts = .error (.notAText locale key) := by
  fun_induction addTexts locale table texts with
  | case1 table => exact .inl ⟨table, rfl, rfl⟩
  | case2 table key text rest ih =>
      obtain ⟨table', hok, hall⟩ | ⟨other, value, hamiss, herror⟩ := ih hascending.of_cons
      · exact .inl ⟨table', hok, hall⟩
      · exact .inr ⟨other, value, hamiss.cons rfl, herror⟩
  | case3 table key value rest hvalue =>
      have hamiss : value.isText = false := by
        cases value with
        | string text => exact absurd rfl (hvalue text)
        | _ => rfl
      exact .inr ⟨key, value, firstAmiss_head hascending hamiss, rfl⟩

/-- The texts of several locales are added, or the first fault among them is named. -/
theorem addLocales_cases (table : TranslationTable) {locales : List (String × Json)}
    (hascending : Ascending locales) (hcanonical : ∀ entry ∈ locales, entry.2.Canonical) :
    (∃ table', addLocales table locales = .ok table' ∧
        (locales.all fun entry => entry.2.holdsTexts) = true) ∨
      ∃ locale value e, FirstAmiss holdsTexts locales locale value ∧
        LocaleFault locale value e ∧ addLocales table locales = .error e := by
  fun_induction addLocales table locales with
  | case1 table => exact .inl ⟨table, rfl, rfl⟩
  | case2 table locale texts rest ih =>
      obtain ⟨htexts, hrest⟩ := List.forall_mem_cons.mp hcanonical
      obtain ⟨table', hok, hall⟩ | ⟨key, value, hamiss, herror⟩ :=
        addTexts_cases locale table (canonical_object.mp htexts).1
      · have hholds : (Json.object texts).holdsTexts = true := hall
        rw [hok]
        obtain ⟨final, hfinal, hlater⟩ | ⟨other, value, e, hamiss, hfault, herror⟩ :=
          ih table' hascending.of_cons hrest
        · refine .inl ⟨final, hfinal, ?_⟩
          rw [List.all_cons, hholds, hlater]
          rfl
        · exact .inr ⟨other, value, e, hamiss.cons hholds, hfault, herror⟩
      · have hamiss' : (Json.object texts).holdsTexts = false := hamiss.all_eq_false
        rw [herror]
        exact .inr ⟨locale, _, _, firstAmiss_head hascending hamiss', .text hamiss, rfl⟩
  | case3 table locale value rest hvalue =>
      have hshape : value.members? = none := by
        cases value with
        | object texts => exact absurd rfl (hvalue texts)
        | _ => rfl
      have hamiss : value.holdsTexts = false := by
        unfold holdsTexts
        rw [hshape]
        rfl
      exact .inr ⟨locale, value, _, firstAmiss_head hascending hamiss, .shape hshape, rfl⟩

/-- **A document is accepted as a catalog, or refused with its first fault.** -/
theorem ofJson_cases {json : Json} (hcanonical : json.Canonical) :
    (∃ table, ofJson json = .ok table ∧ json.isCatalog = true) ∨
      ∃ e, FirstFault json e ∧ ofJson json = .error e := by
  cases json with
  | object locales =>
      obtain ⟨hascending, hmembers⟩ := canonical_object.mp hcanonical
      obtain ⟨table, hok, hall⟩ | ⟨locale, value, e, hamiss, hfault, herror⟩ :=
        addLocales_cases empty hascending hmembers
      · exact .inl ⟨table, hok, hall⟩
      · exact .inr ⟨e, .locale hamiss hfault, herror⟩
  | _ => exact .inr ⟨_, .shape rfl, rfl⟩

section parse

variable {text : String} {json : Json} (hjson : Json.parse? text = some json)

include hjson

/-- A text is read as the catalog of its document. -/
theorem parse_eq_ofJson : parse text = ofJson json := by
  unfold parse jsonOfText
  rw [hjson]
  rfl

/-- **Exactly catalogs are accepted.** -/
theorem parse_eq_ok_iff : (∃ table, parse text = .ok table) ↔ json.isCatalog = true := by
  rw [parse_eq_ofJson hjson]
  obtain ⟨table, hok, hcatalog⟩ | ⟨e, hfault, herror⟩ := ofJson_cases (canonical_of_parse? hjson)
  · exact iff_of_true ⟨table, hok⟩ hcatalog
  · rw [herror, hfault.isCatalog_eq_false]
    exact iff_of_false (by rintro ⟨table, ⟨⟩⟩) Bool.false_ne_true

/-- **A document is refused exactly with its first fault.** -/
theorem parse_eq_error_iff (e : LoadError) : parse text = .error e ↔ json.FirstFault e := by
  have hcanonical := canonical_of_parse? hjson
  rw [parse_eq_ofJson hjson]
  obtain ⟨table, hok, hcatalog⟩ | ⟨e', hfault, herror⟩ := ofJson_cases hcanonical
  · rw [hok]
    refine iff_of_false (by rintro ⟨⟩) fun hfault => ?_
    rw [hfault.isCatalog_eq_false] at hcatalog
    cases hcatalog
  · rw [herror]
    constructor
    · rintro ⟨⟩
      exact hfault
    · intro h
      rw [hfault.eq hcanonical h]

end parse

/-! ## Texts -/

/-- A text that was put in is found under its locale and key, and the others are left alone. -/
theorem text?_insert (table : TranslationTable) (locale key text other name : String) :
    (table.insert locale key text).text? other name =
      if locale = other ∧ key = name then some text else table.text? other name := by
  unfold insert text?
  dsimp only
  rw [Named.lookup_put]
  by_cases hlocale : locale = other
  · subst hlocale
    rw [if_pos rfl, Option.bind_some, Named.lookup_put]
    rcases Named.lookup locale table.locales with _ | texts <;> simp
  · rw [if_neg hlocale, if_neg fun h => hlocale h.1]

/-- What a table holds once the texts of a locale were added. -/
theorem text?_of_addTexts {locale : String} {table table' : TranslationTable}
    {texts : List (String × Json)} (hascending : Ascending texts)
    (h : addTexts locale table texts = .ok table') (other name : String) :
    table'.text? other name =
      if locale = other then ((Named.lookup name texts).bind string?).or (table.text? other name)
      else table.text? other name := by
  fun_induction addTexts locale table texts with
  | case1 table =>
      cases h
      simp
  | case2 table key text rest ih =>
      have hkey : Named.lookup key rest = none :=
        lookup_eq_none_of_lt fun entry hentry => List.rel_of_pairwise_cons hascending hentry
      rw [ih hascending.of_cons h, text?_insert]
      by_cases hlocale : locale = other
      · subst hlocale
        by_cases hname : key = name
        · subst hname
          simp [hkey, string?]
        · simp [hname, Named.lookup_cons_of_ne hname]
      · simp [hlocale]
  | case3 => cases h

/-- What a table holds once the texts of several locales were added. -/
theorem text?_of_addLocales {table table' : TranslationTable} {locales : List (String × Json)}
    (hascending : Ascending locales) (hcanonical : ∀ entry ∈ locales, entry.2.Canonical)
    (h : addLocales table locales = .ok table') (other name : String) :
    table'.text? other name =
      ((object locales).textUnder? other name).or (table.text? other name) := by
  fun_induction addLocales table locales with
  | case1 table =>
      cases h
      simp [textUnder?, members?]
  | case2 table locale texts rest ih =>
      obtain ⟨htexts, hrest⟩ := List.forall_mem_cons.mp hcanonical
      have hlocale : Named.lookup locale rest = none :=
        lookup_eq_none_of_lt fun entry hentry => List.rel_of_pairwise_cons hascending hentry
      rcases hadded : addTexts locale table texts with e | added
      · rw [hadded] at h
        cases h
      · rw [hadded] at h
        rw [ih added hascending.of_cons hrest h,
          text?_of_addTexts (canonical_object.mp htexts).1 hadded]
        by_cases heq : locale = other
        · subst heq
          simp [textUnder?, members?, hlocale]
        · simp [textUnder?, members?, heq, Named.lookup_cons_of_ne heq]
  | case3 => cases h

/-- **A table that was read holds exactly the texts of its document.** -/
theorem text?_of_parse {text : String} {json : Json} (hjson : Json.parse? text = some json)
    {table : TranslationTable} (h : parse text = .ok table) :
    table.text? = json.textUnder? := by
  have hcanonical := canonical_of_parse? hjson
  rw [parse_eq_ofJson hjson] at h
  funext locale key
  cases json with
  | object locales =>
      obtain ⟨hascending, hmembers⟩ := canonical_object.mp hcanonical
      have hempty : empty.text? locale key = none := rfl
      rw [text?_of_addLocales hascending hmembers h, hempty, Option.or_none]
  | _ => cases h

end TranslationTable

end RecordQuery
