import RecordQuery.Catalog
import RecordQuery.Proofs.Eval.Outcome
import RecordQuery.Proofs.Json.Equality
import RecordQuery.Proofs.Locale.Chain
import RecordQuery.Proofs.Locale.Documents

/-!
# Translated properties

A property whose value is a translation key, a text or an identifier behind a percent sign, reads as
the text that a catalog holds for the key. Reading it evaluates the two operands, and then tries the
candidates of the locale, each of which leaves an event; nothing else of the state or the trace is
touched. Every other value reads as it is.

* `Expr.run_translated`: the operands, and then `Operator.localize` on the property.
* `Operator.run_localize_of_isKey`, `Operator.run_localize_of_not_isKey`: the outcomes of that.
* **Main statement** (`Expr.translated_most_specific`): from the text of a catalog's document to
  the property that is read with it (`Expr.ReadsAs`), for every locale.
-/

namespace RecordQuery

/-- A value is a translation key: a text or an identifier that is the key behind a percent sign. -/
def Value.IsKey (raw : Value) (key : String) : Prop :=
  raw = .string ("%" ++ key) ∨ raw = .id ⟨"%" ++ key⟩

namespace Operator

/-! ## Keys -/

/-- A text is read off texts and identifiers only. -/
theorem text?_eq_some_iff {raw : Value} {text : String} :
    raw.text? = some text ↔ raw = .string text ∨ raw = .id ⟨text⟩ := by
  cases raw with
  | string s => simp [Value.text?]
  | id item =>
      obtain ⟨s⟩ := item
      simp [Value.text?]
  | _ => simp [Value.text?]

/-- What stands behind the percent sign of a key is found. -/
theorem translationKey?_eq_some_iff {raw : Value} {key : String} :
    translationKey? raw = some key ↔ raw.IsKey key := by
  have hpercent : ∀ text : String, text.toList = '%' :: key.toList ↔ text = "%" ++ key := by
    intro text
    rw [← String.toList_inj, String.toList_append]
    rfl
  unfold Value.IsKey
  rw [← text?_eq_some_iff, translationKey?]
  rcases raw.text? with _ | text
  · simp
  · rw [Option.map_some, Option.some_inj, ← hpercent]
    rcases text.toList with _ | ⟨c, rest⟩
    · simp
    · by_cases hc : c = '%'
      · subst hc
        simp only [Option.some_inj, List.cons.injEq, true_and]
        constructor
        · rintro rfl
          exact String.toList_ofList.symm
        · rintro rfl
          exact String.ofList_toList
      · simp [hc]

/-! ## Reading a property -/

variable {ctx : Context} {raw : Value} (state : State)

/-- A key stands for the text that is found, or else for itself or for the absent value. Every
candidate that is tried leaves an event. -/
theorem run_localize_of_isKey {translations : Translations}
    (htranslations : ctx.translations = some translations) {key : String} (h : raw.IsKey key) :
    (localize ctx raw).run state =
      ⟨.ok ((translations.text? key).elim (if translations.fallback then raw else .null) .string),
        state, (translations.lookups key).map (Event.lookup · key)⟩ := by
  have hlooked : (Eval.translate translations key).run state =
      ⟨.ok (translations.text? key), state, (translations.lookups key).map (Event.lookup · key)⟩ :=
    rfl
  unfold localize
  rw [translationKey?_eq_some_iff.mpr h, htranslations]
  dsimp only
  rw [Eval.run_bind_ok (congrArg Outcome.value hlooked), hlooked]
  rcases translations.text? key with _ | text <;> simp [Outcome.after]

/-- A value that is no key stands for itself. -/
theorem run_localize_of_not_isKey (h : ∀ key, ¬raw.IsKey key) :
    (localize ctx raw).run state = ⟨.ok raw, state, []⟩ := by
  have hnone : translationKey? raw = none := by
    rw [Option.eq_none_iff_forall_ne_some]
    exact fun key hkey => h key (translationKey?_eq_some_iff.mp hkey)
  unfold localize
  rw [hnone]
  rfl

end Operator

namespace Expr

variable {ctx : Context} {target name : Expr} {state middle final : State} {trace trace' : Trace}
  {kind property : String} {properties : List (String × Value)}

/-- A translated property is read behind its operands. -/
theorem run_translated
    (htarget : (target.value ctx).run state = ⟨.ok (.record kind properties), middle, trace⟩)
    (hname : (name.value ctx).run middle = ⟨.ok (.string property), final, trace'⟩) :
    ((call .translated [target, name]).value ctx).run state =
      ((Operator.localize ctx ((Named.lookup property properties).getD .null)).run final).after
        (trace ++ trace') := by
  have hread : (Operator.translated.readProperty (target.meaning ctx) (name.meaning ctx)).run
      state = ⟨.ok ((Named.lookup property properties).getD .null), final, trace ++ trace'⟩ := by
    unfold Operator.readProperty
    refine (Eval.run_bind_bind_ok htarget hname).trans ?_
    show (⟨_, _, _ ++ []⟩ : Outcome _) = _
    rw [List.append_nil]
    rfl
  rw [Expr.value, meaning, meanings, meanings, meanings]
  show (Operator.translated.readProperty _ _ >>= Operator.localize ctx).run state = _
  rw [Eval.run_bind_ok (congrArg Outcome.value hread), hread]

/-- What reading a translated property comes to, where the operands end in a state and leave a trace:
the property is `raw`, and the texts are those of a document. -/
structure ReadsAs (json : Json) (translations : Translations) (raw : Value) (state : State)
    (trace : Trace) (reading : Outcome (Except QueryError Value)) : Prop where
  /-- A key is searched for under the candidates of the locale. It reads as the text that is found,
  or else as it is or as the absent value. Every candidate that is tried leaves an event. -/
  key : ∀ key, raw.IsKey key →
    Locale.Search (json.textUnder? · key) translations.locale (translations.lookups key)
        (translations.text? key) ∧
      reading =
        ⟨.ok ((translations.text? key).elim (if translations.fallback then raw else .null) .string),
          state, trace ++ (translations.lookups key).map (Event.lookup · key)⟩
  /-- What is no key reads as it is, and nothing is tried. -/
  other : (∀ key, ¬raw.IsKey key) → reading = ⟨.ok raw, state, trace⟩

/-- A translated property reads as it should, with the table of a document that was accepted. -/
theorem translated_readsAs {text : String} {json : Json} (hjson : Json.parse? text = some json)
    {table : TranslationTable} (htable : TranslationTable.parse text = .ok table)
    {translations : Translations} (htexts : translations.support = table.text?)
    (htranslations : ctx.translations = some translations)
    (htarget : (target.value ctx).run state = ⟨.ok (.record kind properties), middle, trace⟩)
    (hname : (name.value ctx).run middle = ⟨.ok (.string property), final, trace'⟩) :
    ReadsAs json translations ((Named.lookup property properties).getD .null) final
      (trace ++ trace') (((call .translated [target, name]).value ctx).run state) where
  key key hkey := by
    constructor
    · have hheld : (json.textUnder? · key) = (translations.support · key) := by
        rw [htexts, TranslationTable.text?_of_parse hjson htable]
      rw [hheld]
      exact Locale.search_chain _ translations.locale
    · rw [run_translated htarget hname, Operator.run_localize_of_isKey final htranslations hkey]
      rfl
  other hkey := by
    rw [run_translated htarget hname, Operator.run_localize_of_not_isKey final hkey]
    show (⟨_, _, _ ++ []⟩ : Outcome _) = _
    rw [List.append_nil]

/-- **A translated property is the most specific text of the catalog.**

A document is accepted as a catalog of translations exactly if it is an object of objects of texts,
and is refused with its first fault otherwise.

Let it be accepted, and let an evaluation have its table for translations, with any locale. A
translated property is read behind its operands, of which the target is a record and the name a text.
If the property is a key, the text is found that the document holds for the key under the longest
candidate of the locale that has one; the candidates are tried from the longest on, up to that one.
Without such a candidate the property reads as it is or as the absent value. If the property is no
key, it reads as it is and nothing is tried.

Every locale has one candidate more than separators: where it has any, its candidates are the locale
and those of what stands before the last separator, which is shorter. -/
theorem translated_most_specific {text : String} {json : Json}
    (hjson : Json.parse? text = some json) :
    ((∃ table, TranslationTable.parse text = .ok table) ↔ json.isCatalog = true) ∧
      (∀ e, TranslationTable.parse text = .error e ↔ json.FirstFault e) ∧
      (∀ table, TranslationTable.parse text = .ok table →
        ∀ (locale : String) (fallback : Bool) (ctx : Context),
          ctx.translations = some ⟨table.text?, locale, fallback⟩ →
          ∀ (target name : Expr) (state middle final : State) (trace trace' : Trace)
            (kind property : String) (properties : List (String × Value)),
            (target.value ctx).run state = ⟨.ok (.record kind properties), middle, trace⟩ →
            (name.value ctx).run middle = ⟨.ok (.string property), final, trace'⟩ →
            ReadsAs json ⟨table.text?, locale, fallback⟩
              ((Named.lookup property properties).getD .null) final (trace ++ trace')
              (((call .translated [target, name]).value ctx).run state)) ∧
      ∀ locale : String, Locale.IsChain locale (Locale.chain locale) := by
  refine ⟨TranslationTable.parse_eq_ok_iff hjson, TranslationTable.parse_eq_error_iff hjson, ?_,
    Locale.isChain_chain⟩
  intro table htable locale fallback ctx htranslations target name state middle final trace trace'
    kind property properties htarget hname
  exact translated_readsAs hjson htable rfl htranslations htarget hname

/-- A document with texts for a language and for one of its scripts. -/
def serbianTexts : String :=
  "\x7b\"sr-Latn\":\x7b\"other\":\"ime\"\x7d,\"sr\":\x7b\"part\":\"deo\"\x7d\x7d"

/-- The table that they make up. -/
def serbianTable : TranslationTable :=
  ⟨[("sr", [("part", "deo")]), ("sr-Latn", [("other", "ime")])]⟩

/-- The text of a key is found under the language, after the region and the script were tried. -/
theorem translated_most_specific_serbian :
    ∃ json table, Json.parse? serbianTexts = some json ∧
      TranslationTable.parse serbianTexts = .ok table ∧ json.isCatalog = true ∧
      let ctx : Context := ⟨.none, some ⟨table.text?, "sr-Latn-RS", false⟩, Catalog.queries []⟩
      let target : Expr := .literal (.record "unit" [("id", .id ⟨"%part"⟩)])
      ((call .translated [target, .literal (.string "id")]).value ctx).run .initial =
          ⟨.ok (.string "deo"), .initial,
            [.lookup "sr-Latn-RS" "part", .lookup "sr-Latn" "part", .lookup "sr" "part"]⟩ ∧
        (Locale.chain "sr-Latn-RS").length = 3 := by
  have hjson : Json.parse? serbianTexts = some (.object
      [("sr", .object [("part", .string "deo")]), ("sr-Latn", .object [("other", .string "ime")])]) :=
    by decide +kernel
  have htable : TranslationTable.parse serbianTexts = .ok serbianTable :=
    TranslationTable.parse_eq_ofJson hjson
  obtain ⟨haccepted, -, hread, hloop⟩ := translated_most_specific hjson
  refine ⟨_, _, hjson, htable, haccepted.mp ⟨_, htable⟩, ?_⟩
  intro ctx target
  have htarget := run_literal ctx (.record "unit" [("id", .id ⟨"%part"⟩)]) .initial
  have hname := run_literal ctx (.string "id") .initial
  have hreads := hread _ htable "sr-Latn-RS" false ctx rfl _ _ _ _ _ _ _ _ _ _ htarget hname
  obtain ⟨-, hreading⟩ := hreads.key "part" (.inr rfl)
  have htext : Translations.text? ⟨serbianTable.text?, "sr-Latn-RS", false⟩ "part" = some "deo" := by
    decide +kernel
  have hlookups : Translations.lookups ⟨serbianTable.text?, "sr-Latn-RS", false⟩ "part" =
      ["sr-Latn-RS", "sr-Latn", "sr"] := by decide +kernel
  rw [htext, hlookups] at hreading
  exact ⟨hreading, (hloop "sr-Latn-RS").length⟩

end Expr

end RecordQuery
