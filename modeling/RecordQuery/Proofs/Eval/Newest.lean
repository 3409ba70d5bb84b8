import RecordQuery.Proofs.Eval.Grouping
import RecordQuery.Proofs.Eval.Sifting
import RecordQuery.Proofs.Eval.Streaming
import RecordQuery.Proofs.Eval.Targets

/-!
# The newest of each

What `latest` makes of a sequence, told without its loop. `Grouping.IsNewestOfEach` says by
positions which values are the newest of each of some values, and `FirstFailure` which failure, if
any, ends the grouping of a working set.

* `Grouping.isNewestOfEach_iff`: what `Grouping.newestOfEach` computes is known by where it stands.
* `Lambda.verdictOfAll`, `Lambda.decides_testAll`: several lambdas as one test of single items.
* `Expr.meaning_latest`: `latest` groups the sequence of its source, fused or not.
* **Main statement** (`Expr.latest_eq_newestOfEach`): opening `latest` gives the newest of each of
  the values that pass, or the first failure.
-/

namespace RecordQuery

/-! ## The newest of each, by where they stand -/

namespace Grouping

/-- A value stands among others as the newest of its item: no version of the item before it is
greater, and all behind it are less. -/
def IsNewest (values : List Value) (winner : Value) (id : ItemId) (version : Version) : Prop :=
  ∃ before after, values = before ++ winner :: after ∧
    (∀ other ∈ before, ∀ version', other.versioned? = some (id, version') →
      (compare version' version).isLE) ∧
    ∀ other ∈ after, ∀ version', other.versioned? = some (id, version') →
      compare version' version = .lt

/-- The newest of each item among some values, told by where they stand. -/
structure IsNewestOfEach (values winners : List Value) : Prop where
  /-- There is one winner of each identifier, in the order in which the identifiers occur first. -/
  identifiers : winners.map identifier? = (values.filterMap identifier?).eraseDups.map some
  /-- Every winner is the newest of its item. -/
  newest : ∀ winner ∈ winners, ∀ id version, winner.versioned? = some (id, version) →
    IsNewest values winner id version

/-- The last of the greatest stands where no version before it is greater and all behind it are
less. -/
theorem exists_of_lastGreatest {versions : List (Version × Value)} {winner : Version × Value}
    (h : lastGreatest versions = some winner) :
    ∃ before after, versions = before ++ winner :: after ∧
      (∀ other ∈ before, (compare other.1 winner.1).isLE) ∧
      ∀ other ∈ after, compare other.1 winner.1 = .lt := by
  have hgreatest := (lastGreatest_spec h).2
  rw [lastGreatest, List.getLast?_eq_head?_reverse, ← List.filter_reverse, List.head?_filter,
    List.find?_eq_some_iff_append] at h
  obtain ⟨-, before, after, hsplit, hbefore⟩ := h
  have hversions : versions = after.reverse ++ winner :: before.reverse := by
    rw [← List.reverse_reverse versions, hsplit]
    simp
  refine ⟨after.reverse, before.reverse, hversions, fun other hother => ?_, fun other hother => ?_⟩
  · refine hgreatest other ?_
    rw [hversions]
    exact List.mem_append_left _ hother
  · -- if it were not less, it would be one of the greatest, and stand behind the last of them
    refine lt_iff_not_isLE.mpr fun hge => ?_
    have hout := hbefore other (List.mem_reverse.mp hother)
    rw [Bool.not_eq_true', Bool.eq_false_iff] at hout
    exact hout (List.all_eq_true.mpr fun version hmem =>
      Std.TransCmp.isLE_trans (hgreatest version hmem) hge)

/-- What the grouping finds as the newest of an item is the newest by where it stands. -/
theorem isNewest_of_newest? {id : ItemId} {version : Version} {values : List Value} {winner : Value}
    (h : newest? id values = some winner) (hversioned : winner.versioned? = some (id, version)) :
    IsNewest values winner id version := by
  obtain ⟨version', hlast, hversion'⟩ := versioned?_of_newest? h
  obtain rfl : version' = version := by
    rw [hversioned] at hversion'
    exact (Prod.mk.inj (Option.some.inj hversion')).2.symm
  obtain ⟨before, after, hsplit, hbefore, hafter⟩ := exists_of_lastGreatest hlast
  -- the winner is found again where its version was taken from
  obtain ⟨earlier, rest, hvalues, rfl, hrest⟩ := List.filterMap_eq_append_iff.mp hsplit
  obtain ⟨skipped, found, later, rfl, hskipped, hfound, rfl⟩ :=
    List.filterMap_eq_cons_iff.mp hrest
  obtain ⟨_, _, hpair⟩ := Option.map_eq_some_iff.mp hfound
  obtain rfl : found = winner := (Prod.mk.inj hpair).2
  have hnone : versionsOf id skipped = [] := List.filterMap_eq_nil_iff.mpr hskipped
  refine ⟨earlier ++ skipped, later, by rw [hvalues, List.append_assoc], ?_, ?_⟩
  · intro other hother version hversion
    rcases List.mem_append.mp hother with hearlier | hskip
    · exact hbefore _ (mem_versionsOf.mpr ⟨hearlier, hversion⟩)
    · have hmem := mem_versionsOf.mpr ⟨hskip, hversion⟩
      rw [hnone] at hmem
      cases hmem
  · intro other hother version hversion
    exact hafter _ (mem_versionsOf.mpr ⟨hother, hversion⟩)

/-- Of two newest values of an item, none stands before the other. -/
theorem IsNewest.eq {id : ItemId} {version version' : Version} {values : List Value}
    {winner winner' : Value} (h : IsNewest values winner id version)
    (h' : IsNewest values winner' id version') (hversioned : winner.versioned? = some (id, version))
    (hversioned' : winner'.versioned? = some (id, version')) : winner = winner' := by
  obtain ⟨before, after, rfl, hbefore, hafter⟩ := h
  obtain ⟨before', after', hsplit, hbefore', hafter'⟩ := h'
  rcases List.append_eq_append_iff.mp hsplit with ⟨between, rfl, hrest⟩ | ⟨between, rfl, hrest⟩
  · rcases List.cons_eq_append_iff.mp hrest with ⟨-, heq⟩ | ⟨between, rfl, rfl⟩
    · exact (List.cons.inj heq).1.symm
    · have hlt := hafter winner' (List.mem_append_right _ List.mem_cons_self) version' hversioned'
      have hle := hbefore' winner (List.mem_append_right _ List.mem_cons_self) version hversioned
      exact absurd hle (lt_iff_not_isLE.mp hlt)
  · rcases List.cons_eq_append_iff.mp hrest with ⟨-, heq⟩ | ⟨between, rfl, rfl⟩
    · exact (List.cons.inj heq).1
    · have hlt := hafter' winner (List.mem_append_right _ List.mem_cons_self) version hversioned
      have hle := hbefore winner' (List.mem_append_right _ List.mem_cons_self) version' hversioned'
      exact absurd hle (lt_iff_not_isLE.mp hlt)

/-- The winners of items that occur have the identifiers of these items. -/
theorem map_identifier?_filterMap {values : List Value} {ids : List ItemId}
    (h : ∀ id ∈ ids, id ∈ values.filterMap identifier?) :
    (ids.filterMap (newest? · values)).map identifier? = ids.map some := by
  induction ids with
  | nil => rfl
  | cons id rest ih =>
      rw [List.forall_mem_cons] at h
      obtain ⟨winner, hwinner⟩ := exists_newest? h.1
      obtain ⟨version, -, hversioned⟩ := versioned?_of_newest? hwinner
      rw [List.filterMap_cons, hwinner, List.map_cons, List.map_cons, ih h.2,
        identifier?_eq_some.mpr ⟨version, hversioned⟩]

/-- Values that are the newest of their items are those of the items that they are versions of. -/
theorem eq_filterMap_newest? {values winners : List Value} {ids : List ItemId}
    (h : ∀ id ∈ ids, id ∈ values.filterMap identifier?)
    (hids : winners.map identifier? = ids.map some)
    (hnewest : ∀ winner ∈ winners, ∀ id version, winner.versioned? = some (id, version) →
      IsNewest values winner id version) : winners = ids.filterMap (newest? · values) := by
  induction ids generalizing winners with
  | nil => exact List.map_eq_nil_iff.mp hids
  | cons id rest ih =>
      obtain ⟨winner, winners, rfl, hid, hrest⟩ := List.map_eq_cons_iff.mp hids
      rw [List.forall_mem_cons] at h hnewest
      obtain ⟨version, hversioned⟩ := identifier?_eq_some.mp hid
      obtain ⟨winner', hwinner'⟩ := exists_newest? h.1
      obtain ⟨version', -, hversioned'⟩ := versioned?_of_newest? hwinner'
      have heq : winner = winner' := (hnewest.1 id version hversioned).eq
        (isNewest_of_newest? hwinner' hversioned') hversioned hversioned'
      rw [List.filterMap_cons, hwinner', heq, ← ih h.2 hrest hnewest.2]

/-- **The newest of each are known by where they stand.** -/
theorem isNewestOfEach_iff {values winners : List Value} :
    IsNewestOfEach values winners ↔ winners = newestOfEach values := by
  have hmem : ∀ id ∈ (values.filterMap identifier?).eraseDups, id ∈ values.filterMap identifier? :=
    fun id hid => List.mem_eraseDups.mp hid
  constructor
  · exact fun h => eq_filterMap_newest? hmem h.identifiers h.newest
  · rintro rfl
    refine ⟨map_identifier?_filterMap hmem, fun winner hwinner id version hversioned => ?_⟩
    obtain ⟨id', -, hnewest⟩ := List.mem_filterMap.mp hwinner
    obtain ⟨version', -, hversioned'⟩ := versioned?_of_newest? hnewest
    rw [hversioned] at hversioned'
    cases hversioned'
    exact isNewest_of_newest? hnewest hversioned

end Grouping

/-! ## Lambdas that are tried in order -/

namespace Lambda

variable (ctx : Context) (bindings : List (String × Value))

/-- The verdict of a lambda about a value under some bindings, after the working set was taken. -/
def verdict (lambda : Lambda) (value : Value) : Verdict :=
  let o := ((lambda.meaning ctx).test value).run ⟨bindings, .taken .spent⟩
  ⟨o.value, o.trace⟩

/-- The verdict of several lambdas, which are tried in order until one refuses or fails. -/
def verdictOfAll : List Lambda → Value → Verdict
  | [], _ => ⟨.ok true, []⟩
  | lambda :: rest, value =>
    let first := lambda.verdict ctx bindings value
    match first.result with
    | .ok true =>
      let later := verdictOfAll rest value
      ⟨later.result, first.trace ++ later.trace⟩
    | _ => first

/-- A lambda decides about a value as its body does, with the value bound. -/
theorem decides_test (lambda : Lambda) :
    Eval.Decides (lambda.meaning ctx).test bindings (lambda.verdict ctx bindings) := by
  intro value tape
  rw [verdict, Binder.test, Eval.run_map, Eval.run_map, lambda.run_apply_of_taken ctx value]
  rfl

/-- Trying lambdas in order comes to their verdict. -/
theorem decides_testAll (lambdas : List Lambda) :
    Eval.Decides (Binder.testAll (lambdas.map (Lambda.meaning ctx))) bindings
      (verdictOfAll ctx bindings lambdas) := by
  induction lambdas with
  | nil => exact fun _ _ => rfl
  | cons lambda rest ih =>
      intro value tape
      have hfirst := lambda.decides_test ctx bindings value tape
      rw [List.map_cons, Binder.testAll, verdictOfAll]
      rcases hresult : (lambda.verdict ctx bindings value).result with e | passes <;>
        rw [hresult] at hfirst
      · rw [Eval.run_bind_error (by rw [hfirst]), hfirst, hresult]
      · rw [Eval.run_bind_ok (by rw [hfirst]), hfirst]
        cases passes
        · simp [Outcome.after, hresult]
        · simp [Outcome.after, ih value tape]

end Lambda

/-! ## `latest` -/

namespace Expr

variable (ctx : Context)

/-- Only a selection is grouped by the source that it selects from. -/
theorem selection?_eq_none_or (source : Expr) :
    (source.meaning ctx).selection? = none ∨
      ∃ (inner : Expr) (condition : Lambda), source = inner.select condition := by
  cases source with
  | literal | parameter | lambda =>
      rw [meaning]
      exact .inl rfl
  | var name =>
      rw [meaning, Meaning.ofVar]
      split <;> exact .inl rfl
  | call op operands =>
      rw [meaning, Meaning.ofCall.eq_def]
      split <;> exact .inl rfl
  | filter kind inner =>
      rw [meaning]
      cases kind <;> exact .inl rfl
  | filterBy kind inner binder body =>
      cases kind with
      | select => exact .inr ⟨inner, ⟨binder, body⟩, rfl⟩
      | reject | collect | latest | unique =>
          rw [meaning]
          exact .inl rfl

/-- **`latest` groups the sequence of its source**, also where it groups what the source selects
from. -/
theorem meaning_latest (source : Expr) (own : Option Lambda) :
    (source.filtered .latest own).meaning ctx =
      .ofSource ((source.source ctx).latest (own.toList.map (Lambda.meaning ctx))) := by
  rcases selection?_eq_none_or ctx source with hnone | ⟨inner, condition, rfl⟩
  · have hgroups : ∀ binders, Meaning.ofFilter.latest (source.meaning ctx) binders =
        .latest binders (source.source ctx) := by
      intro binders
      rw [Meaning.ofFilter.latest, hnone]
      rfl
    rcases own with _ | own
    · rw [filtered, meaning]
      exact congrArg Meaning.ofSource (hgroups [])
    · rw [filtered, meaning]
      exact congrArg Meaning.ofSource (hgroups [own.meaning ctx])
  · rw [meaning_latest_select, Source.latest, Source.latest, grouped_select]

/-- What is grouped is the newest of each that the source gives and the lambda of `latest` lets
pass. -/
theorem grouped_eq_newestOfEach (source : Expr) (own : Option Lambda) :
    (source.source ctx).grouped (own.toList.map (Lambda.meaning ctx)) =
      Grouping.newestOfEach <$> ((own.elim source source.select).source ctx).collect := by
  have hnil : ∀ source : Expr, (source.source ctx).grouped [] =
      Grouping.newestOfEach <$> (source.source ctx).collect := by
    intro source
    rw [Source.grouped_nil]
    exact congrArg (· <$> (source.source ctx).collect) (funext Grouping.foldl_place)
  rcases own with _ | own
  · exact hnil source
  · exact (grouped_select ctx source own []).trans (hnil (source.select own))

/-- Grouping the working set tests its items one by one, and groups those that pass. -/
theorem run_grouped_everything {bindings : List (String × Value)}
    (hunbound : Named.lookup everythingName bindings = none) (lambdas : List Lambda) (tape : Tape) :
    ((everything.source ctx).grouped (lambdas.map (Lambda.meaning ctx))).run
        ⟨bindings, .available tape⟩ =
      let reading := tape.siftEach (Lambda.verdictOfAll ctx bindings lambdas)
      ⟨reading.result.map Grouping.newestOfEach, ⟨bindings, .taken reading.rest⟩,
        reading.trace⟩ := by
  have hbinders := Lambda.forall_meaning_obeys (State.later ctx.queries) lambdas
  have hstart : (everything.source ctx).start.run ⟨bindings, .available tape⟩ =
      ⟨.ok .workingSet, ⟨bindings, .taken tape⟩, []⟩ :=
    run_start_everything_of_available hunbound tape
  have hread := Source.run_readFrom_gathering (advance_everything ctx)
    (fun value => (Binder.Obeys.testAll hbinders value).advances)
    (Lambda.decides_testAll ctx bindings lambdas) (fun winners value => Source.place value winners)
    id tape []
  have hfold : (fun values : List Value =>
      id (values.foldl (fun winners value => Source.place value winners) [])) =
        Grouping.newestOfEach := funext Grouping.foldl_place
  rw [hfold] at hread
  unfold Source.grouped Source.read
  rw [Eval.run_bind_ok (by rw [hstart]), hstart]
  exact hread

/-- The lambda of a selection from the working set is tried before the one of `latest`. -/
theorem source_latest_everything (selection own : Option Lambda) :
    ((selection.elim everything everything.select).filtered .latest own).source ctx =
      (everything.source ctx).latest
        ((selection.toList ++ own.toList).map (Lambda.meaning ctx)) := by
  rcases selection with _ | condition
  · exact congrArg Meaning.source (meaning_latest ctx everything own)
  · exact congrArg Meaning.source (meaning_latest_select ctx everything condition own)

/-- Opening and reading `latest` over the working set. -/
theorem run_latest_everything {bindings : List (String × Value)}
    (hunbound : Named.lookup everythingName bindings = none) (selection own : Option Lambda)
    (tape : Tape) :
    let source := selection.elim everything everything.select
    let latest := (source.filtered .latest own).source ctx
    let reading := tape.siftEach
      (Lambda.verdictOfAll ctx bindings (selection.toList ++ own.toList))
    latest.start.run ⟨bindings, .available tape⟩ =
        ⟨reading.result.map fun values => .values (Grouping.newestOfEach values),
          ⟨bindings, .taken reading.rest⟩, reading.trace⟩ ∧
      latest.collect.run ⟨bindings, .available tape⟩ =
        ⟨reading.result.map Grouping.newestOfEach, ⟨bindings, .taken reading.rest⟩,
          reading.trace⟩ := by
  have hgrouped := run_grouped_everything ctx hunbound (selection.toList ++ own.toList) tape
  dsimp only
  rw [source_latest_everything, Source.start_latest, Source.collect_latest, Eval.run_map, hgrouped]
  refine ⟨?_, rfl⟩
  dsimp only
  rcases (tape.siftEach _).result with e | values <;> rfl

/-- **`latest` gives the newest of each.** In every context and from every state, opening it
computes the list of what its source and its lambda let pass (first equation), and gives the newest
of each of these, which are known by where they stand in that list. Over the working set, a
selection or not, this is told by the verdicts of the lambdas about single items, that of the
selection first. If an item is a failure or has a verdict that is one, the first of these is the
result, and nothing is pulled behind it; otherwise the newest of each of the values that pass are
the result. -/
theorem latest_eq_newestOfEach (ctx : Context) (own : Option Lambda) :
    (∀ source : Expr,
        let latest := (source.filtered .latest own).source ctx
        let filtered := (own.elim source source.select).source ctx
        latest.start = (fun values => .values (Grouping.newestOfEach values)) <$> filtered.collect ∧
          latest.collect = Grouping.newestOfEach <$> filtered.collect) ∧
      (∀ values winners, Grouping.IsNewestOfEach values winners ↔
        winners = Grouping.newestOfEach values) ∧
      ∀ (selection : Option Lambda) (bindings : List (String × Value)) (tape : Tape),
        Named.lookup everythingName bindings = none →
          let source := selection.elim everything everything.select
          let latest := (source.filtered .latest own).source ctx
          let start : State := ⟨bindings, .available tape⟩
          let test := Lambda.verdictOfAll ctx bindings (selection.toList ++ own.toList)
          let winners := Grouping.newestOfEach (tape.items.filterMap (Item.passing? test))
          ((∃ position e, FirstFailure test tape.items position e) ∨
              ∀ item ∈ tape.items, Item.failure? test item = none) ∧
            (∀ position e, FirstFailure test tape.items position e →
              let stop : State := ⟨bindings, .taken (tape.drop (position + 1))⟩
              latest.start.run start = ⟨.error e, stop, tape.testing test (position + 1)⟩ ∧
                latest.collect.run start = ⟨.error e, stop, tape.testing test (position + 1)⟩) ∧
            ((∀ item ∈ tape.items, Item.failure? test item = none) →
              let stop : State := ⟨bindings, .taken .spent⟩
              latest.start.run start =
                  ⟨.ok (.values winners), stop, tape.testing test tape.length⟩ ∧
                latest.collect.run start = ⟨.ok winners, stop, tape.testing test tape.length⟩) := by
  refine ⟨fun source => ?_, fun _ _ => Grouping.isNewestOfEach_iff,
    fun selection bindings tape hunbound => ?_⟩
  · have hgrouped := grouped_eq_newestOfEach ctx source own
    rw [Expr.source, meaning_latest]
    constructor
    · refine (Source.start_latest _ _).trans ?_
      rw [hgrouped, ← comp_map]
      rfl
    · exact (Source.collect_latest _ _).trans hgrouped
  · obtain ⟨hstart, hcollect⟩ := run_latest_everything ctx hunbound selection own tape
    refine ⟨FirstFailure.exists_or_forall _ tape.items, fun position e hfirst => ?_,
      fun hnone => ?_⟩
    · rw [Tape.sift_eq_of_firstFailure hfirst] at hstart hcollect
      exact ⟨hstart, hcollect⟩
    · rw [Tape.sift_eq_of_forall hnone] at hstart hcollect
      exact ⟨hstart, hcollect⟩

/-- The absent value is refused by the selection before the lambda of `latest` can fail on it, and
of two equal versions the later one is kept. A number passes the selection, and the lambda fails. -/
theorem latest_eq_newestOfEach_tied :
    let ctx : Context := ⟨.none, none, Catalog.queries []⟩
    let selection : Lambda := ⟨"x", .call .notEquals [.var "x", .literal .null]⟩
    let own : Lambda := ⟨"y", member (.var "y") "stable"⟩
    let latest := ((everything.select selection).filtered .latest (some own)).source ctx
    let unit (kind id version : String) (stable : Bool) : Value :=
      ((Record.ofKind kind).setAll [("id", .string id), ("version", .string version),
        ("stable", .boolean stable)]).toValue
    let items : List Item :=
      [.ok (unit "unit" "b" "1" true), .ok .null, .ok (unit "unit" "a" "1.0" true),
        .ok (unit "unit" "a" "3" false), .ok (unit "unit" "b" "0.9" true),
        .ok (unit "feature" "a" "1" true)]
    let failing : List Item := [.ok (unit "unit" "a" "1" true), .ok (.integer 7), .ok .null]
    Named.lookup everythingName ([] : List (String × Value)) = none ∧
      (latest.collect.run ⟨[], .available (.ofItems items)⟩).value =
        .ok [unit "unit" "b" "1" true, unit "feature" "a" "1" true] ∧
      ∃ e, (latest.start.run ⟨[], .available (.ofItems failing)⟩).value = .error e ∧
        (latest.start.run ⟨[], .available (.ofItems failing)⟩).state =
          ⟨[], .taken (.ofItems [.ok .null])⟩ := by
  intro ctx selection own latest unit items failing
  let test := Lambda.verdictOfAll ctx [] [selection, own]
  obtain ⟨-, -, hworkingSet⟩ := latest_eq_newestOfEach ctx (some own)
  refine ⟨rfl, ?_, ?_⟩
  · obtain ⟨-, -, hpassed⟩ := hworkingSet (some selection) [] (.ofItems items) rfl
    have hnone : ∀ item ∈ (Tape.ofItems items).items, Item.failure? test item = none := by
      rw [Tape.items_ofItems]
      exact List.map_inj_left.mp (rfl : items.map (Item.failure? test) = items.map fun _ => none)
    refine (congrArg Outcome.value (hpassed hnone).2).trans (congrArg Except.ok ?_)
    rfl
  · obtain ⟨-, hfailed, -⟩ := hworkingSet (some selection) [] (.ofItems failing) rfl
    obtain ⟨e, he⟩ : ∃ e, Item.failure? test (.ok (.integer 7)) = some e :=
      Option.isSome_iff_exists.mp rfl
    have hfirst : FirstFailure test (Tape.ofItems failing).items 1 e :=
      ⟨⟨_, rfl, he⟩, List.forall_mem_singleton.mpr rfl⟩
    obtain ⟨hstart, -⟩ := hfailed 1 e hfirst
    exact ⟨e, congrArg Outcome.value hstart, congrArg Outcome.state hstart⟩

end Expr

end RecordQuery
