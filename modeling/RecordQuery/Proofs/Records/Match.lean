import RecordQuery.Proofs.Driver.Match
import RecordQuery.Proofs.Eval.Conditions
import RecordQuery.Proofs.Json.Equality
import RecordQuery.Proofs.Value.Stored
import RecordQuery.Records.Filter

/-!
# Matches of a record set that was read

A match tries a predicate on each record that is of the right shape. On records that were read no
part of it fails: the range is tried on the version, the patterns on other properties, and a key is
looked up under a name that is not that of the identifier. So a performance comes to its end, and
the result is told by the criteria alone (`MatchFilter.gives_predicate`).

**Main statements**

* `MatchFilter.run_eq_filter`: the result is the list of the records that are considered
  (`MatchFilter.Considers`) and meet the criteria (`MatchFilter.Accepts`).
* `MatchFilter.run_with_kind`: a kind does not narrow the match without one but takes the place of
  its shape, so that records without a version come in (`MatchFilter.run_unversionedUnit`).
-/

namespace RecordQuery.MatchFilter

/-! ## The criteria -/

/-- Whether a record is considered: a record of the kind, or of the versioned shape if no kind is
given. -/
def Considers (filter : MatchFilter) (record : Record) : Prop :=
  match filter.kind with
  | some kind => record.kind = kind
  | none => record.versioned?.isSome

/-- What a record that is considered has to meet. -/
structure Accepts (filter : MatchFilter) (config : QueryConfig)
    (support : Option (String → String → Option String)) (record : Record) : Prop where
  /-- Its identifier fits the pattern. -/
  identifier : (record.valueOf "id").Fits filter.idPattern
  /-- Its version lies in the range, if there is one. -/
  version : ∀ range ∈ filter.range, (record.valueOf "version").LiesIn range
  /-- Its name fits the pattern in the language of the caller, if there is one. -/
  name : ∀ pattern ∈ filter.namePattern,
    (config.translated support (record.valueOf "name")).Fits pattern

instance (filter : MatchFilter) (record : Record) : Decidable (filter.Considers record) :=
  match h : filter.kind with
  | some kind => decidable_of_iff (record.kind = kind) (by simp [Considers, h])
  | none => decidable_of_iff (record.versioned?.isSome) (by simp [Considers, h])

variable (filter : MatchFilter) (config : QueryConfig)
  (support : Option (String → String → Option String)) (record : Record)

/-- The criteria, one by one: the identifier, the range if there is one, the name if there is a
pattern. -/
theorem accepts_iff :
    filter.Accepts config support record ↔
      (record.valueOf "id").Fits filter.idPattern ∧
        (∀ range ∈ filter.range, (record.valueOf "version").LiesIn range) ∧
        ∀ pattern ∈ filter.namePattern,
          (config.translated support (record.valueOf "name")).Fits pattern :=
  ⟨fun h => ⟨h.identifier, h.version, h.name⟩, fun h => ⟨h.1, h.2.1, h.2.2⟩⟩

instance : Decidable (filter.Accepts config support record) :=
  decidable_of_iff _ (filter.accepts_iff config support record).symm

/-- The records of a set that are considered and meet the criteria. -/
def selects (value : Value) : Bool :=
  value.record?.any fun record =>
    decide (filter.Considers record ∧ filter.Accepts config support record)

/-- A record is selected if it is of the shape that is looked for and meets the criteria. -/
theorem selects_toValue :
    filter.selects config support record.toValue =
      (decide (filter.Considers record) && decide (filter.Accepts config support record)) :=
  Bool.decide_and _ _

/-! ## Parameters -/

/-- All conditions, each with the name and the value of its parameter. -/
def conditions : List (Expr × String × Value) :=
  filter.idCondition :: filter.furtherConditions

/-- Every condition refers to its own parameter, and the parameters have different names. -/
theorem parameterized_conditions : Parameterized filter.conditions where
  nodup := by
    unfold conditions furtherConditions idCondition
    rcases filter.range with _ | range <;> rcases filter.namePattern with _ | pattern <;> simp
  refs := by
    intro condition h
    rcases List.mem_cons.mp h with rfl | h
    · rfl
    · rcases List.mem_append.mp h with h | h
      · obtain ⟨range, -, rfl⟩ := Option.map_eq_some_iff.mp (Option.mem_toList.mp h)
        rfl
      · obtain ⟨pattern, -, rfl⟩ := Option.map_eq_some_iff.mp (Option.mem_toList.mp h)
        rfl

/-- The check of the parameters succeeds. -/
theorem check_driver : (filter.driver config support).check = .ok () := by
  refine filter.parameterized_conditions.check_ofLists ?_
  show filter.predicate.parameterRefs = _
  rw [predicate, Expr.parameterRefs_foldl_and, conditions, List.flatMap_cons, List.flatMap_map]

/-! ## One record -/

/-- The predicate, the wishes for a range and a name taken one by one. -/
theorem predicate_eq :
    filter.predicate =
      (filter.namePattern.map fun _ =>
          (Expr.this.translated "name").fits (.parameter (.named "name"))).toList.foldl Expr.and
        ((filter.range.map fun _ =>
            (Expr.this.member "version").fits (.parameter (.named "range"))).toList.foldl Expr.and
          filter.idCondition.1) := by
  unfold predicate furtherConditions
  rcases filter.range with _ | range <;> rcases filter.namePattern with _ | pattern <;> rfl

/-- The translations of the driver's runs, where a name is wanted. -/
theorem translations_driver (h : filter.namePattern.isSome) :
    (filter.driver config support).translations =
      support.map fun texts => ⟨texts, config.locale, config.fallback⟩ := by
  obtain ⟨pattern, hpattern⟩ := Option.isSome_iff_exists.mp h
  have hneeds : filter.predicate.needsTranslations = true := by
    rw [predicate_eq, hpattern, Expr.needsTranslations_foldl_and]
    exact Bool.or_true _
  unfold Prepared.translations
  exact if_pos hneeds

section Record

variable {record} (h : record.AsRead) {queries : Registry} {state : State}
  (hthis : (Expr.this.value ((filter.driver config support).context queries)).Gives state
    record.toValue)

include h hthis

/-- The condition on the identifier is whether it fits its pattern. -/
theorem gives_idCondition :
    (filter.idCondition.1.value ((filter.driver config support).context queries)).Gives state
      (.boolean (decide ((record.valueOf "id").Fits filter.idPattern))) := by
  have hmem : filter.idCondition ∈ filter.conditions := List.mem_cons_self
  have hparameter := filter.parameterized_conditions.get?_ofLists hmem
  exact Expr.gives_member_fits h hthis (by decide) hparameter

/-- The condition on the version is whether it lies in the range. -/
theorem gives_rangeCondition {range : VersionRange} (hrange : filter.range = some range) :
    (((Expr.this.member "version").fits (.parameter (.named "range"))).value
      ((filter.driver config support).context queries)).Gives state
      (.boolean (decide ((record.valueOf "version").LiesIn range))) := by
  have hmem : ((Expr.this.member "version").fits (.parameter (.named "range")), "range",
      Value.range range) ∈ filter.conditions := by
    simp [conditions, furtherConditions, hrange]
  have hparameter := filter.parameterized_conditions.get?_ofLists hmem
  exact Expr.gives_member_liesIn h hthis "version" hparameter

/-- The condition on the name is whether its translation fits the pattern. -/
theorem gives_nameCondition {pattern : String} (hpattern : filter.namePattern = some pattern) :
    (((Expr.this.translated "name").fits (.parameter (.named "name"))).value
      ((filter.driver config support).context queries)).Gives state
      (.boolean (decide ((config.translated support (record.valueOf "name")).Fits pattern))) := by
  have hmem : ((Expr.this.translated "name").fits (.parameter (.named "name")), "name",
      Value.string pattern) ∈ filter.conditions := by
    simp [conditions, furtherConditions, hpattern]
  have hparameter := filter.parameterized_conditions.get?_ofLists hmem
  have htranslations := filter.translations_driver config support (by rw [hpattern]; rfl)
  exact Expr.gives_translated_fits h hthis htranslations (by decide) (by decide) hparameter

/-- The predicate has the answer that the criteria say. -/
theorem gives_predicate :
    (filter.predicate.value ((filter.driver config support).context queries)).Gives state
      (.boolean (decide (filter.Accepts config support record))) := by
  have hrange := Expr.gives_foldl_and (filter.gives_idCondition config support h hthis)
    fun range hmem => filter.gives_rangeCondition config support h hthis hmem
  have hname := Expr.gives_foldl_and hrange
    fun pattern hmem => filter.gives_nameCondition config support h hthis hmem
  have hanswer : decide (filter.Accepts config support record) =
      (decide ((record.valueOf "id").Fits filter.idPattern) &&
        filter.range.all (fun range => decide ((record.valueOf "version").LiesIn range)) &&
        filter.namePattern.all fun pattern =>
          decide ((config.translated support (record.valueOf "name")).Fits pattern)) := by
    rw [Bool.eq_iff_iff, decide_eq_true_iff, accepts_iff]
    rcases filter.range with _ | range <;> rcases filter.namePattern with _ | pattern <;>
      simp [and_assoc]
  rw [predicate_eq, hanswer]
  exact hname

end Record

/-- The driver looks at the records of the shape that the filter considers. -/
theorem shape_accepts :
    (filter.driver config support).shape.accepts record.toValue =
      decide (filter.Considers record) := by
  rw [Bool.eq_iff_iff, decide_eq_true_iff]
  unfold driver Considers
  rcases filter.kind with _ | kind
  · rfl
  · show decide (some record.kind = some kind) = true ↔ _
    rw [decide_eq_true_iff, Option.some_inj]

/-- A driver accepts exactly the records that are considered and meet the criteria. -/
theorem gives_accepts {record : Record} (h : record.AsRead) (queries : Registry) (state : State) :
    ((filter.driver config support).accepts queries record.toValue).Gives state
      (filter.selects config support record.toValue) := by
  unfold MatchDriver.accepts
  rw [filter.shape_accepts config support, selects_toValue]
  by_cases hconsiders : filter.Considers record
  · rw [decide_eq_true hconsiders, if_pos rfl, Bool.true_and]
    refine Eval.Gives.withBinding ?_
    have hthis : (Expr.this.value ((filter.driver config support).context queries)).Gives
        { state with bindings := (Expr.thisName, record.toValue) :: state.bindings }
        record.toValue :=
      Expr.gives_var (by decide) (if_pos rfl)
    have hpredicate := (filter.gives_predicate config support h hthis).map Value.isTrue
    rw [Value.isTrue_boolean] at hpredicate
    exact hpredicate
  · rw [decide_eq_false hconsiders]
    exact Eval.gives_pure false

/-- The test of a record that was read succeeds, with the answer that the criteria say. -/
theorem result_test {record : Record} (h : record.AsRead) (queries : Registry) :
    ((filter.driver config support).test queries record.toValue).result =
      .ok (filter.selects config support record.toValue) := by
  obtain ⟨trace, hrun⟩ := filter.gives_accepts config support h queries .initial
  unfold MatchDriver.test
  rw [filter.check_driver config support]
  dsimp only
  rw [hrun]

/-! ## Record sets -/

/-- The result over records that were read: those that are considered and meet the criteria. -/
theorem result_run {records : List Value}
    (h : ∀ value ∈ records, ∃ record : Record, value = record.toValue ∧ record.AsRead) :
    (filter.run config support records).result =
      .ok (records.filter (filter.selects config support)) := by
  have htests : ∀ value ∈ records,
      ((filter.driver config support).test (Catalog.queries []) value).result =
        .ok (filter.selects config support value) := by
    intro value hvalue
    obtain ⟨record, rfl, hread⟩ := h value hvalue
    exact filter.result_test config support hread (Catalog.queries [])
  unfold run
  rw [MatchDriver.perform_eq_bracket_siftEach _ _ (filter.check_driver config support)]
  exact Tape.result_siftEach_ofValues htests

/-- **A match of a record set that was read succeeds**, with any criteria, configuration and texts.
Its result is the list of those records, in order and each as often as it occurs, that are of the
kind, or of the versioned shape where no kind is given, and that meet the criteria. -/
theorem run_eq_filter {text : String} {records : List Value}
    (h : Records.parse text = .ok records) :
    (filter.run config support records).result =
      .ok (records.filter fun value => value.record?.any fun record =>
        decide (filter.Considers record ∧ filter.Accepts config support record)) :=
  filter.result_run config support (Records.asRead_of_parse h)

/-- A document of three records whose names are keys. The third has no version. -/
def threeRecords : String :=
  "[\x7b\"id\":\"a\",\"name\":\"%n\",\"version\":\"1.2\"\x7d," ++
    "\x7b\"id\":\"a\",\"name\":\"%n\",\"version\":\"3\"\x7d," ++
    "\x7b\"id\":\"ab\",\"name\":\"%n\"\x7d]"

/-- The identifiers and the names of all three records fit. The version of the first lies in the
range, and that of the second does not. -/
theorem run_threeRecords :
    ∃ records, Records.parse threeRecords = .ok records ∧
      (run
          { idPattern := "a*"
            range := some (.between ⟨⟨1, 0, 0, ""⟩, true⟩ ⟨⟨2, 0, 0, ""⟩, false⟩)
            namePattern := some "T*l" }
          ⟨"de_CH", true⟩
          (some fun locale key => if locale = "de" ∧ key = "n" then some "Teil" else none)
          records).result =
        .ok [.record "record"
          [("id", .id ⟨"a"⟩), ("name", .string "%n"), ("version", .version ⟨1, 2, 0, ""⟩)]] := by
  have hjson : Json.parse? threeRecords = some (.array [
      .object [("id", .string "a"), ("name", .string "%n"), ("version", .string "1.2")],
      .object [("id", .string "a"), ("name", .string "%n"), ("version", .string "3")],
      .object [("id", .string "ab"), ("name", .string "%n")]]) := by decide +kernel
  have hparse : Records.parse threeRecords =
      .ok [
        .record "record"
          [("id", .id ⟨"a"⟩), ("name", .string "%n"), ("version", .version ⟨1, 2, 0, ""⟩)],
        .record "record"
          [("id", .id ⟨"a"⟩), ("name", .string "%n"), ("version", .version ⟨3, 0, 0, ""⟩)],
        .record "record" [("id", .id ⟨"ab"⟩), ("name", .string "%n")]] :=
    Records.parse_eq_ofJson hjson
  exact ⟨_, hparse, run_eq_filter _ _ _ hparse⟩

/-! ## With a kind and without one -/

/-- A kind has no part in the criteria. -/
theorem accepts_with_kind (kind : Option String) :
    { filter with kind := kind }.Accepts config support record ↔
      filter.Accepts config support record := by
  rw [accepts_iff, accepts_iff]

/-- With a kind, all records of that kind that meet the criteria are selected, versions or not. -/
theorem selects_of_kind (kind : String) :
    { filter with kind := some kind }.selects config support record.toValue = true ↔
      record.kind = kind ∧ filter.Accepts config support record := by
  rw [selects_toValue, Bool.and_eq_true, decide_eq_true_iff, decide_eq_true_iff,
    accepts_with_kind]
  exact Iff.rfl

/-- Without a kind, all versions that meet the criteria are selected. -/
theorem selects_of_versioned :
    { filter with kind := none }.selects config support record.toValue = true ↔
      record.versioned?.isSome ∧ filter.Accepts config support record := by
  rw [selects_toValue, Bool.and_eq_true, decide_eq_true_iff, decide_eq_true_iff,
    accepts_with_kind]
  exact Iff.rfl

/-- The versions in the match with a kind are the records of that kind in the match without one. -/
theorem filter_selects_comm (kind : String) {records : List Value}
    (h : ∀ value ∈ records, ∃ record : Record, value = record.toValue ∧ record.AsRead) :
    (records.filter ({ filter with kind := some kind }.selects config support)).filter
        (fun value => value.versioned?.isSome) =
      (records.filter ({ filter with kind := none }.selects config support)).filter
        (fun value => value.kind? = some kind) := by
  rw [List.filter_filter, List.filter_filter]
  refine List.filter_congr fun value hvalue => ?_
  obtain ⟨record, rfl, -⟩ := h value hvalue
  have hkind : record.toValue.kind? = some kind ↔ record.kind = kind := Option.some_inj
  rw [Bool.eq_iff_iff, Bool.and_eq_true, Bool.and_eq_true, selects_of_kind, selects_of_versioned,
    decide_eq_true_iff, hkind]
  exact and_left_comm

/-- **A kind takes the place of the versioned shape.** The records of a match with a kind that have
an identifier and a version are those of that kind in the match without one. So the kind narrows the
match, and every record of it is a version, exactly if no record of the kind that meets the other
criteria is without an identifier or a version. -/
theorem run_with_kind (kind : String) {text : String} {records : List Value}
    (h : Records.parse text = .ok records) :
    ∃ wide narrowed,
      ({ filter with kind := none }.run config support records).result = .ok wide ∧
        ({ filter with kind := some kind }.run config support records).result = .ok narrowed ∧
        narrowed.filter (fun value => value.versioned?.isSome) =
          wide.filter (fun value => value.kind? = some kind) ∧
        ((narrowed = wide.filter (fun value => value.kind? = some kind) ∧
            ∀ value ∈ narrowed, value.versioned?.isSome) ↔
          ∀ record : Record, record.toValue ∈ records → record.kind = kind →
            filter.Accepts config support record → record.versioned?.isSome) := by
  have hread := Records.asRead_of_parse h
  have hsame := filter.filter_selects_comm config support kind hread
  refine ⟨_, _, result_run _ config support hread, result_run _ config support hread, hsame, ?_⟩
  constructor
  · rintro ⟨-, hversioned⟩ record hmem hkind haccepts
    have hselected := (filter.selects_of_kind config support record kind).mpr ⟨hkind, haccepts⟩
    exact hversioned _ (List.mem_filter.mpr ⟨hmem, hselected⟩)
  · intro hall
    have hversioned : ∀ value ∈
        records.filter ({ filter with kind := some kind }.selects config support),
        value.versioned?.isSome = true := by
      intro value hvalue
      obtain ⟨hmem, hselected⟩ := List.mem_filter.mp hvalue
      obtain ⟨record, rfl, -⟩ := hread value hmem
      obtain ⟨hkind, haccepts⟩ := (filter.selects_of_kind config support record kind).mp hselected
      exact hall record hmem hkind haccepts
    rw [List.filter_eq_self.mpr hversioned] at hsame
    exact ⟨hsame, hversioned⟩

/-- A document of two records with versions, of different kinds. -/
def unitAndPart : String :=
  "[\x7b\"kind\":\"unit\",\"id\":\"a\",\"version\":\"1\"\x7d," ++
    "\x7b\"kind\":\"part\",\"id\":\"b\",\"version\":\"2\"\x7d]"

/-- Where all records of the kind have a version, the kind narrows the match: of the two records it
leaves the unit. -/
theorem run_unitAndPart :
    let unit := (Record.versioned "unit" ⟨"a"⟩ ⟨1, 0, 0, ""⟩).toValue
    let part := (Record.versioned "part" ⟨"b"⟩ ⟨2, 0, 0, ""⟩).toValue
    Records.parse unitAndPart = .ok [unit, part] ∧
      (run { kind := none } .standard none [unit, part]).result = .ok [unit, part] ∧
      (run { kind := some "unit" } .standard none [unit, part]).result = .ok [unit] := by
  intro unit part
  have hjson : Json.parse? unitAndPart = some (.array [
      .object [("id", .string "a"), ("kind", .string "unit"), ("version", .string "1")],
      .object [("id", .string "b"), ("kind", .string "part"), ("version", .string "2")]]) := by
    decide +kernel
  have hparse : Records.parse unitAndPart = .ok [unit, part] := Records.parse_eq_ofJson hjson
  obtain ⟨wide, narrowed, hwide, hnarrowed, -, hiff⟩ :=
    run_with_kind {} .standard none "unit" hparse
  have hversioned : ∀ record : Record, record.toValue ∈ [unit, part] →
      record.versioned?.isSome := by
    intro record hmem
    have hall : ∀ value ∈ [unit, part], value.versioned?.isSome := by decide
    exact hall _ hmem
  have hboth : wide = [unit, part] :=
    Except.ok.inj (hwide.symm.trans (result_run _ .standard none (Records.asRead_of_parse hparse)))
  have hunit : narrowed = [unit] := by
    rw [(hiff.mpr fun record hmem _ _ => hversioned record hmem).1, hboth]
    rfl
  exact ⟨hparse, hboth ▸ hwide, hunit ▸ hnarrowed⟩

/-- A document of a unit without a version. -/
def unversionedUnit : String :=
  "[\x7b\"kind\":\"unit\",\"id\":\"a\"\x7d]"

/-- The record is in the match of its kind, though it is no version and not in the match without a
kind. -/
theorem run_unversionedUnit :
    ∃ record, Records.parse unversionedUnit = .ok [record] ∧ record.versioned? = none ∧
      (run { kind := some "unit" } .standard none [record]).result = .ok [record] ∧
      (run { kind := none } .standard none [record]).result = .ok [] := by
  have hjson : Json.parse? unversionedUnit = some (.array [
      .object [("id", .string "a"), ("kind", .string "unit")]]) := by decide +kernel
  have hparse : Records.parse unversionedUnit = .ok [.record "unit" [("id", .id ⟨"a"⟩)]] :=
    Records.parse_eq_ofJson hjson
  have hread := Records.asRead_of_parse hparse
  exact ⟨_, hparse, rfl, result_run _ .standard none hread, result_run _ .standard none hread⟩

end RecordQuery.MatchFilter
