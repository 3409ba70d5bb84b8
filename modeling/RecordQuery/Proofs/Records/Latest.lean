import RecordQuery.Proofs.Eval.Conditions
import RecordQuery.Proofs.Eval.Fusion
import RecordQuery.Proofs.Eval.Grouping
import RecordQuery.Proofs.Json.Equality
import RecordQuery.Records.Latest

/-!
# The latest versions of a record set that was read

The query for the latest versions is an expression that groups the working set while it tries a
lambda. It is followed from the parameters on (`LatestQuery.check_driver`) over its body
(`LatestQuery.source_body`) and the lambda on one record (`LatestQuery.gives_testAll`) to the loop
over all records (`Grouping.result_grouped`). No step fails on records that were read: the conditions
ask for a kind and for an identifier, and no record has a version under the name of the latter.

**Main statement** (`LatestQuery.run_eq_newestOfEach`): the result is the newest of each of the
wanted records (`LatestQuery.wants`). What is not wanted is left out before the grouping, and a
record that is no version of an item makes no difference to it.
-/

namespace RecordQuery.LatestQuery

/-! ## The wanted records -/

/-- Whether a value is a record that is a version of an item, of the kind and with an identifier
that fits the pattern, where they are given. -/
def wants (query : LatestQuery) (value : Value) : Bool :=
  value.record?.any fun record =>
    record.versioned?.any fun found =>
      query.kind.all (fun kind => record.kind = kind) &&
        query.idPattern.all fun pattern => Text.Fits pattern.toList found.1.text.toList

variable (query : LatestQuery)

/-! ## Parameters -/

/-- Every condition refers to its own parameter, and the parameters have different names. -/
theorem parameterized_conditions : Parameterized query.conditions where
  nodup := by
    unfold conditions
    rcases query.kind with _ | kind <;> rcases query.idPattern with _ | pattern <;> simp
  refs := by
    intro condition h
    rcases List.mem_append.mp h with h | h
    · obtain ⟨kind, -, rfl⟩ := Option.map_eq_some_iff.mp (Option.mem_toList.mp h)
      rfl
    · obtain ⟨pattern, -, rfl⟩ := Option.map_eq_some_iff.mp (Option.mem_toList.mp h)
      rfl

variable (config : QueryConfig)

/-- The lambda that is tried while the records are grouped, if there is any. -/
def lambda? : Option Lambda :=
  (Expr.conjunction (query.conditions.map Prod.fst)).map fun condition => ⟨itemName, condition⟩

/-- The body groups what is wanted, or all records if nothing particular is. -/
theorem body_eq :
    (query.driver config).body =
      (query.lambda?.elim Expr.everything Expr.everything.select).latest := by
  unfold driver lambda?
  rcases Expr.conjunction (query.conditions.map Prod.fst) with _ | condition <;> rfl

/-- The check of the parameters succeeds. -/
theorem check_driver : (query.driver config).check = .ok () := by
  refine query.parameterized_conditions.check_ofLists ?_
  rw [body_eq, lambda?, ← List.flatMap_map]
  rcases query.conditions.map Prod.fst with _ | ⟨first, rest⟩
  · rfl
  · rw [List.flatMap_cons, ← Expr.parameterRefs_foldl_and]
    rfl

/-- The body groups the records, trying the lambda meanwhile. -/
theorem source_body (ctx : Context) :
    (query.driver config).body.source ctx =
      (Expr.everything.source ctx).latest (query.lambda?.toList.map (Lambda.meaning ctx)) := by
  rw [body_eq, Expr.source]
  rcases query.lambda? with _ | lambda
  · rw [Option.elim_none, Expr.latest, Expr.filtered, Expr.meaning, Expr.source, Expr.everything,
      Expr.meaning]
    rfl
  · have hselect := Expr.meaning_latest_select ctx Expr.everything lambda none
    exact congrArg Meaning.source hselect

/-! ## One record -/

/-- Whether a record meets the conditions, whether it is a version or not. -/
def passes (record : Record) : Bool :=
  query.kind.all (fun kind => record.kind = kind) &&
    query.idPattern.all fun pattern => (record.valueOf "id").Fits pattern

/-- The conditions, the wishes for a kind and an identifier taken one by one. -/
theorem map_fst_conditions :
    query.conditions.map Prod.fst =
      (query.kind.map fun _ => (Expr.var itemName).fits (.parameter (.named "kind"))).toList ++
        (query.idPattern.map fun _ =>
          ((Expr.var itemName).member "id").fits (.parameter (.named "id"))).toList := by
  unfold conditions
  rcases query.kind with _ | kind <;> rcases query.idPattern with _ | pattern <;> rfl

section Record

variable {record : Record} (h : record.AsRead) {queries : Registry} {state : State}
  (hitem : ((Expr.var itemName).value ((query.driver config).context queries)).Gives state
    record.toValue)

include hitem

/-- The condition on the kind is whether it is the one. -/
theorem gives_kindCondition {kind : String} (hkind : query.kind = some kind) :
    (((Expr.var itemName).fits (.parameter (.named "kind"))).value
      ((query.driver config).context queries)).Gives state
      (.boolean (decide (record.kind = kind))) := by
  have hmem : ((Expr.var itemName).fits (.parameter (.named "kind")), "kind",
      Value.string kind) ∈ query.conditions := by
    simp [conditions, hkind]
  have hparameter := query.parameterized_conditions.get?_ofLists hmem
  exact Expr.gives_fits hitem (Expr.gives_parameter hparameter) rfl

include h

/-- The condition on the identifier is whether it fits its pattern. -/
theorem gives_idCondition {pattern : String} (hpattern : query.idPattern = some pattern) :
    ((((Expr.var itemName).member "id").fits (.parameter (.named "id"))).value
      ((query.driver config).context queries)).Gives state
      (.boolean (decide ((record.valueOf "id").Fits pattern))) := by
  have hmem : (((Expr.var itemName).member "id").fits (.parameter (.named "id")), "id",
      Value.string pattern) ∈ query.conditions := by
    simp [conditions, hpattern]
  have hparameter := query.parameterized_conditions.get?_ofLists hmem
  exact Expr.gives_member_fits h hitem (by decide) hparameter

/-- The lambda has the answer that the conditions say. -/
theorem gives_lambda {lambda : Lambda} (hlambda : query.lambda? = some lambda) :
    (lambda.body.value ((query.driver config).context queries)).Gives state
      (.boolean (query.passes record)) := by
  obtain ⟨condition, hcondition, rfl⟩ := Option.map_eq_some_iff.mp hlambda
  rw [map_fst_conditions] at hcondition
  unfold passes
  rcases hkind : query.kind with _ | kind
  · rw [hkind] at hcondition
    rcases hpattern : query.idPattern with _ | pattern
    · rw [hpattern] at hcondition
      cases hcondition
    · rw [hpattern] at hcondition
      obtain rfl := Option.some.inj hcondition
      exact query.gives_idCondition config h hitem hpattern
  · rw [hkind] at hcondition
    obtain rfl := Option.some.inj hcondition
    exact Expr.gives_foldl_and (query.gives_kindCondition config hitem hkind)
      fun pattern hpattern => query.gives_idCondition config h hitem hpattern

end Record

/-- The lambdas that are tried have the answer that the conditions say, those of a query without
conditions included. -/
theorem gives_testAll {record : Record} (h : record.AsRead) (queries : Registry) (state : State) :
    (Binder.testAll (query.lambda?.toList.map
        (Lambda.meaning ((query.driver config).context queries))) record.toValue).Gives state
      (query.passes record) := by
  rcases hlambda : query.lambda? with _ | lambda
  · have hnone : query.kind = none ∧ query.idPattern = none := by
      have hconditions := Expr.conjunction_eq_none.mp (Option.map_eq_none_iff.mp hlambda)
      rw [map_fst_conditions] at hconditions
      simpa using hconditions
    have hpasses : query.passes record = true := by
      rw [passes, hnone.1, hnone.2]
      rfl
    rw [hpasses]
    exact Eval.gives_pure true
  · obtain ⟨condition, -, rfl⟩ := Option.map_eq_some_iff.mp hlambda
    have hitem : ((Expr.var itemName).value ((query.driver config).context queries)).Gives
        { state with bindings := (itemName, record.toValue) :: state.bindings } record.toValue :=
      Expr.gives_var (by decide) (if_pos rfl)
    have htest := ((query.gives_lambda config h hitem hlambda).withBinding).map Value.isTrue
    rw [Value.isTrue_boolean] at htest
    refine htest.bind ?_
    rcases query.passes record with _ | _
    · exact Eval.gives_pure false
    · exact Eval.gives_pure true

/-! ## Record sets -/

/-- A record is wanted if it meets the conditions and is a version of an item. -/
theorem wants_toValue (record : Record) :
    query.wants record.toValue = (record.versioned?.isSome && query.passes record) := by
  show record.versioned?.any _ = _
  rcases hversioned : record.versioned? with _ | ⟨id, version⟩
  · rfl
  · rw [passes, Record.valueOf_id_of_versioned? hversioned]
    rfl

/-- The result over records that were read: of each item the last wanted record of greatest
version. -/
theorem result_run {records : List Value}
    (h : ∀ value ∈ records, ∃ record : Record, value = record.toValue ∧ record.AsRead) :
    (query.run config records).result =
      .ok (Grouping.newestOfEach (records.filter query.wants)) := by
  have hwants : records.filter query.wants =
      (records.filter fun value => value.record?.any query.passes).filter
        fun value => value.versioned?.isSome := by
    rw [List.filter_filter]
    refine List.filter_congr fun value hvalue => ?_
    obtain ⟨record, rfl, -⟩ := h value hvalue
    exact query.wants_toValue record
  have hpassing : ∀ value ∈ records, ∀ tape,
      (Binder.testAll (query.lambda?.toList.map
          (Lambda.meaning ((query.driver config).context (Catalog.queries [])))) value).Gives
        ⟨[], .taken tape⟩ (value.record?.any query.passes) := by
    intro value hvalue tape
    obtain ⟨record, rfl, hread⟩ := h value hvalue
    exact query.gives_testAll config hread (Catalog.queries []) ⟨[], .taken tape⟩
  unfold run CollectionDriver.perform
  rw [query.check_driver config]
  show (Eval.run (Source.collect (Expr.source _ _)) _).value = _
  rw [source_body, Source.collect_latest, hwants, Grouping.newestOfEach_filter_versioned]
  exact Grouping.result_grouped rfl (fun tape => rfl) hpassing

/-- **The latest versions of a record set that was read** are found, with any configuration, on
which nothing depends. For each item of which there is a wanted record, of the kind and with an
identifier that fits the pattern where they are given, the result has the last of its wanted records
of greatest version; the items stand in the order of their first wanted records. -/
theorem run_eq_newestOfEach {text : String} {records : List Value}
    (h : Records.parse text = .ok records) :
    (query.run config records).result =
      .ok (Grouping.newestOfEach (records.filter query.wants)) :=
  query.result_run config (Records.asRead_of_parse h)

/-- A document of an item in two kinds, and of another item. -/
def twoKinds : String :=
  "[\x7b\"kind\":\"unit\",\"id\":\"a\",\"version\":\"1\"\x7d," ++
    "\x7b\"kind\":\"feature\",\"id\":\"a\",\"version\":\"2\"\x7d," ++
    "\x7b\"kind\":\"unit\",\"id\":\"b\",\"version\":\"1\"\x7d]"

/-- The older version of the item is of the wanted kind, and wins over the newer one of the other.
The identifier of the last record does not fit. -/
theorem run_twoKinds :
    ∃ records, Records.parse twoKinds = .ok records ∧
      (run ⟨some "unit", some "a*"⟩ .standard records).result =
        .ok [(Record.versioned "unit" ⟨"a"⟩ ⟨1, 0, 0, ""⟩).toValue] := by
  have hjson : Json.parse? twoKinds = some (.array [
      .object [("id", .string "a"), ("kind", .string "unit"), ("version", .string "1")],
      .object [("id", .string "a"), ("kind", .string "feature"), ("version", .string "2")],
      .object [("id", .string "b"), ("kind", .string "unit"), ("version", .string "1")]]) := by
    decide +kernel
  have hparse : Records.parse twoKinds =
      .ok [(Record.versioned "unit" ⟨"a"⟩ ⟨1, 0, 0, ""⟩).toValue,
        (Record.versioned "feature" ⟨"a"⟩ ⟨2, 0, 0, ""⟩).toValue,
        (Record.versioned "unit" ⟨"b"⟩ ⟨1, 0, 0, ""⟩).toValue] := Records.parse_eq_ofJson hjson
  exact ⟨_, hparse, run_eq_newestOfEach _ .standard hparse⟩

end RecordQuery.LatestQuery
