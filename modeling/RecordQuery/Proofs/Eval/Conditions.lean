import RecordQuery.Driver.Prepared
import RecordQuery.Proofs.Eval.Gives
import RecordQuery.Proofs.Expr.Nodes
import RecordQuery.Proofs.Text.Glob
import RecordQuery.Proofs.Value.Stored

/-!
# Conditions on records

What the conditions of a query ask of a record, said of its values: that one fits a pattern
(`Value.Fits`), is a version that lies in a range (`Value.LiesIn`), or fits a pattern once it is
translated (`QueryConfig.translated`).

The operator that matches values treats many types and can fail, on a version and a pattern that is
no range. On the values that a record that was read has under the names in question it cannot:
`Operator.fit_string` and `Operator.fit_range` say what it answers there, and with them the three
forms of conditions are evaluated: `Expr.gives_member_fits`, `Expr.gives_member_liesIn` and
`Expr.gives_translated_fits`.

A query that is made of conditions, each with its own parameter (`Parameterized`), passes the check
of its parameters and finds the value of each.
-/

namespace RecordQuery

/-! ## Values of properties -/

/-- The value of a property, absent or not, is one that its name allows. -/
theorem Record.AsRead.storedUnder_valueOf {record : Record} (h : record.AsRead) (name : String) :
    (record.valueOf name).StoredUnder name := by
  unfold valueOf
  rcases hvalue : record.property? name with _ | value
  · trivial
  · exact h name value hvalue

/-- A record of the versioned shape has its identifier under the name for it. -/
theorem Record.valueOf_id_of_versioned? {record : Record} {id : ItemId} {version : Version}
    (h : record.versioned? = some (id, version)) : record.valueOf "id" = .id id := by
  have hid := identifier?_of_versioned? h
  unfold identifier? at hid
  split at hid
  · rename_i found hfound
    obtain rfl := Option.some.inj hid
    exact congrArg (Option.getD · Value.null) hfound
  · cases hid

/-! ## Matching a value -/

namespace Value

/-- A text or an identifier that a star pattern stands for, or a record of that kind. -/
def Fits (pattern : String) : Value → Prop
  | .string text => Text.Fits pattern.toList text.toList
  | .id item => Text.Fits pattern.toList item.text.toList
  | .record kind _ => kind = pattern
  | _ => False

instance (pattern : String) : (value : Value) → Decidable (value.Fits pattern)
  | .string text => inferInstanceAs (Decidable (Text.Fits pattern.toList text.toList))
  | .id item => inferInstanceAs (Decidable (Text.Fits pattern.toList item.text.toList))
  | .record kind _ => inferInstanceAs (Decidable (kind = pattern))
  | .null | .boolean _ | .integer _ | .version _ | .range _ | .list _ | .query _ => .isFalse fun h => h

/-- A version that lies in a range. -/
def LiesIn (range : VersionRange) : Value → Prop
  | .version v => range.contains v
  | _ => False

instance (range : VersionRange) : (value : Value) → Decidable (value.LiesIn range)
  | .version v => inferInstanceAs (Decidable (range.contains v = true))
  | .null | .boolean _ | .integer _ | .string _ | .id _ | .range _ | .record .. | .list _
  | .query _ => .isFalse fun h => h

end Value

namespace Operator

/-- The matcher decides whether a text fits a pattern. -/
theorem globMatches_eq_decide (pattern text : List Char) :
    Text.globMatches pattern text = decide (Text.Fits pattern text) := by
  rw [Bool.eq_iff_iff, Text.globMatches_iff, decide_eq_true_iff]

/-- Under any name but that of the version, a value is matched with a text as with a pattern or a
kind. -/
theorem fit_string {name : String} {left : Value} (h : left.StoredUnder name)
    (hname : name ≠ Record.versionProperty) (pattern : String) :
    fit left (.string pattern) = .ok (decide (left.Fits pattern)) := by
  rcases left with _ | b | i | text | item | version | range | ⟨kind, properties⟩ | items | ref
  case version => exact absurd h hname
  case string => exact congrArg Except.ok (globMatches_eq_decide _ _)
  case id => exact congrArg Except.ok (globMatches_eq_decide _ _)
  all_goals rfl

/-- A value of a record is in a range only if it is a version that lies in it. -/
theorem fit_range {name : String} {left : Value} (h : left.StoredUnder name)
    (range : VersionRange) : fit left (.range range) = .ok (decide (left.LiesIn range)) := by
  rcases left with _ | b | i | text | item | version | range' | ⟨kind, properties⟩ | items | ref
  case range => exact h.elim
  case version => exact congrArg Except.ok Bool.decide_eq_true.symm
  all_goals rfl

end Operator

/-! ## Translating a value -/

/-- What a property reads as in the language of the caller. A text behind a percent sign is a key,
and stands for the text that the first locale of the chain has under it; if none has one it stands
for itself, or for the absent value where keys do not. Any other value stands for itself, and so
does everything where there are no texts. -/
def QueryConfig.translated (config : QueryConfig)
    (support : Option (String → String → Option String)) (raw : Value) : Value :=
  match raw, support with
  | .string text, some texts =>
    if text.toList.head? = some '%' then
      ((Locale.chain config.locale).findSome? (texts · (String.ofList text.toList.tail))).elim
        (if config.fallback then raw else .null) Value.string
    else raw
  | _, _ => raw

/-- What a value reads as is again one that its name allows. -/
theorem QueryConfig.storedUnder_translated (config : QueryConfig)
    (support : Option (String → String → Option String)) {name : String} {raw : Value}
    (h : raw.StoredUnder name) : (config.translated support raw).StoredUnder name := by
  unfold translated
  split
  · rename_i text texts
    split
    · rcases (Locale.chain config.locale).findSome? _ with _ | found
      · rcases config.fallback <;> trivial
      · trivial
    · exact h
  · exact h

namespace Operator

variable {ctx : Context} {state : State}

/-- A text is a key if it begins with a percent sign. -/
theorem translationKey?_string (text : String) :
    translationKey? (.string text) =
      if text.toList.head? = some '%' then some (String.ofList text.toList.tail) else none := by
  rw [translationKey?, Value.text?, Option.map_some]
  rcases text.toList with _ | ⟨c, key⟩
  · rfl
  · by_cases hc : c = '%'
    · subst hc
      rfl
    · simp [hc]

/-- Looking a property up succeeds. Under any name but that of the identifier, which is a text to
the lookup, it gives what the value reads as. -/
theorem gives_localize {config : QueryConfig} {support : Option (String → String → Option String)}
    (htranslations : ctx.translations =
      support.map fun texts => ⟨texts, config.locale, config.fallback⟩)
    {name : String} {raw : Value} (h : raw.StoredUnder name) (hname : name ≠ Record.idProperty) :
    (localize ctx raw).Gives state (config.translated support raw) := by
  unfold localize QueryConfig.translated
  rw [htranslations]
  rcases raw with _ | b | i | text | item | version | range | ⟨kind, properties⟩ | items | ref
  case id => exact absurd h hname
  case string =>
    rw [translationKey?_string]
    by_cases hkey : text.toList.head? = some '%'
    · rw [if_pos hkey]
      rcases support with _ | texts
      · exact Eval.gives_pure _
      · dsimp only [Option.map_some]
        rw [if_pos hkey]
        refine (Eval.gives_report _ _).bind ?_
        dsimp only [Translations.text?]
        rcases (Locale.chain config.locale).findSome? _ with _ | text'
        · exact Eval.gives_pure _
        · exact Eval.gives_pure _
    · rw [if_neg hkey]
      rcases support with _ | texts
      · exact Eval.gives_pure _
      · dsimp only [Option.map_some]
        rw [if_neg hkey]
        exact Eval.gives_pure _
  all_goals exact Eval.gives_pure _

end Operator

/-! ## Conditions on a record that was read -/

namespace Expr

variable {ctx : Context} {state : State} {target : Expr} {record : Record} {ref : ParameterRef}
  (h : record.AsRead) (htarget : (target.value ctx).Gives state record.toValue)

include h htarget

/-- A property other than the version is matched with a pattern. -/
theorem gives_member_fits {name pattern : String} (hname : name ≠ Record.versionProperty)
    (hpattern : ctx.parameters.get? ref = some (.string pattern)) :
    (((target.member name).fits (.parameter ref)).value ctx).Gives state
      (.boolean (decide ((record.valueOf name).Fits pattern))) :=
  gives_fits (gives_member htarget name) (gives_parameter hpattern)
    (Operator.fit_string (h.storedUnder_valueOf name) hname pattern)

/-- A property is matched with a range. -/
theorem gives_member_liesIn (name : String) {range : VersionRange}
    (hrange : ctx.parameters.get? ref = some (.range range)) :
    (((target.member name).fits (.parameter ref)).value ctx).Gives state
      (.boolean (decide ((record.valueOf name).LiesIn range))) :=
  gives_fits (gives_member htarget name) (gives_parameter hrange)
    (Operator.fit_range (h.storedUnder_valueOf name) range)

/-- A property other than the identifier and the version is translated and matched with a pattern. -/
theorem gives_translated_fits {config : QueryConfig}
    {support : Option (String → String → Option String)}
    (htranslations : ctx.translations =
      support.map fun texts => ⟨texts, config.locale, config.fallback⟩)
    {name pattern : String} (hid : name ≠ Record.idProperty)
    (hversion : name ≠ Record.versionProperty)
    (hpattern : ctx.parameters.get? ref = some (.string pattern)) :
    (((target.translated name).fits (.parameter ref)).value ctx).Gives state
      (.boolean (decide ((config.translated support (record.valueOf name)).Fits pattern))) := by
  have hstored := h.storedUnder_valueOf name
  have hname := gives_translated htarget (Operator.gives_localize htranslations hstored hid)
  exact gives_fits hname (gives_parameter hpattern)
    (Operator.fit_string (config.storedUnder_translated support hstored) hversion pattern)

end Expr

/-! ## Parameters of conditions -/

namespace Parameters

/-- A name that is not given a value keeps the one it has. -/
theorem get?_foldl_addNamed_of_not_mem {name : String} {named : List (String × Value)}
    (h : name ∉ named.map Prod.fst) (params : Parameters) :
    (named.foldl (fun params entry => params.addNamed entry.1 entry.2) params).get? (.named name) =
      params.get? (.named name) := by
  induction named generalizing params with
  | nil => rfl
  | cons entry rest ih =>
      obtain ⟨hne, hrest⟩ := not_or.mp (mt List.mem_cons.mpr h)
      rw [List.foldl_cons, ih hrest]
      show Named.lookup name (Named.put entry.1 entry.2 params.named) = _
      rw [Named.lookup_put, if_neg (Ne.symm hne)]
      rfl

/-- A name that is given a value once has that value. -/
theorem get?_ofLists {named : List (String × Value)} (hnodup : (named.map Prod.fst).Nodup)
    {name : String} {value : Value} (h : (name, value) ∈ named) (positional : List Value) :
    (ofLists positional named).get? (.named name) = some value := by
  unfold ofLists
  generalize (⟨positional, []⟩ : Parameters) = params
  induction named generalizing params with
  | nil => cases h
  | cons entry rest ih =>
      obtain ⟨hout, hrest⟩ := List.nodup_cons.mp hnodup
      rcases List.mem_cons.mp h with rfl | hmem
      · rw [List.foldl_cons, get?_foldl_addNamed_of_not_mem hout]
        show Named.lookup name (Named.put name value params.named) = _
        rw [Named.lookup_put, if_pos rfl]
      · exact ih hrest hmem _

end Parameters

namespace Expr

/-- Only without any conditions is there no conjunction. -/
theorem conjunction_eq_none {conditions : List Expr} :
    conjunction conditions = none ↔ conditions = [] := by
  rcases conditions with _ | ⟨first, rest⟩ <;> simp [conjunction]

/-- The parameters of a conjunction are those of its operands. -/
theorem parameterRefs_and (a b : Expr) :
    (a.and b).parameterRefs = a.parameterRefs ++ b.parameterRefs := by
  unfold parameterRefs
  rw [and, walk, walkAll, walkAll, walkAll, List.append_nil, List.filterMap_cons,
    List.filterMap_append]
  rfl

/-- A conjunction needs translations if one of its operands does. -/
theorem needsTranslations_and (a b : Expr) :
    (a.and b).needsTranslations = (a.needsTranslations || b.needsTranslations) := by
  unfold needsTranslations
  rw [and, walk, walkAll, walkAll, walkAll, List.append_nil, List.any_cons, List.any_append]
  rfl

/-- The parameters of several conditions are those of each, in order. -/
theorem parameterRefs_foldl_and (first : Expr) (rest : List Expr) :
    (rest.foldl and first).parameterRefs =
      first.parameterRefs ++ rest.flatMap parameterRefs := by
  induction rest generalizing first with
  | nil => simp
  | cons next rest ih => rw [List.foldl_cons, ih, parameterRefs_and, List.flatMap_cons,
      List.append_assoc]

/-- Several conditions need translations if one of them does. -/
theorem needsTranslations_foldl_and (first : Expr) (rest : List Expr) :
    (rest.foldl and first).needsTranslations =
      (first.needsTranslations || rest.any needsTranslations) := by
  induction rest generalizing first with
  | nil => simp
  | cons next rest ih => rw [List.foldl_cons, ih, needsTranslations_and, List.any_cons,
      Bool.or_assoc]

end Expr

/-- Conditions each of which refers to one parameter, and no two to the same: a condition comes with
the name and the value of its parameter. -/
structure Parameterized (conditions : List (Expr × String × Value)) : Prop where
  /-- No two parameters have the same name. -/
  nodup : ((conditions.map Prod.snd).map Prod.fst).Nodup
  /-- Each condition refers to its own parameter. -/
  refs : ∀ condition ∈ conditions, condition.1.parameterRefs = [.named condition.2.1]

namespace Parameterized

variable {conditions : List (Expr × String × Value)} (h : Parameterized conditions)

include h

/-- Each parameter has its value. -/
theorem get?_ofLists {condition : Expr × String × Value} (hmem : condition ∈ conditions) :
    (Parameters.ofLists [] (conditions.map Prod.snd)).get? (.named condition.2.1) =
      some condition.2.2 :=
  Parameters.get?_ofLists h.nodup (List.mem_map_of_mem hmem) []

/-- A query that refers to the parameters of the conditions and to no others passes its check. -/
theorem check_ofLists {body : Expr}
    (hbody : body.parameterRefs = conditions.flatMap fun condition => condition.1.parameterRefs) :
    (Parameters.ofLists [] (conditions.map Prod.snd)).check body = .ok () := by
  refine Parameters.check_eq_ok_iff.mpr fun ref href => ?_
  rw [hbody] at href
  obtain ⟨condition, hmem, href⟩ := List.mem_flatMap.mp href
  rw [h.refs condition hmem] at href
  obtain rfl := List.mem_singleton.mp href
  exact Option.isSome_of_eq_some (h.get?_ofLists hmem)

end Parameterized

end RecordQuery
