import Mathlib.Data.List.Basic
import RecordQuery.Proofs.Eval.Gives
import RecordQuery.Proofs.Value.Fingerprint

/-!
# Grouping by identifier

`Grouping.newestOfEach` is what the greatest versions of a list of values are, said without a loop:
one value for each identifier, the identifiers in the order in which they occur first, and for each
the last among its values of greatest version (`Grouping.newest?`). Values that are no versions of
anything have no part in it.

**Main statement** (`Grouping.foldl_place`): placing one value after another among the winners so
far computes it. One step (`Grouping.place_newestOfEach`) is compared with one more value at the
end of the list; that the last of equals wins is `Grouping.lastGreatest_concat`. So grouping a
working set of values at hand gives the newest of each of those that pass the lambdas
(`Grouping.result_grouped`).
-/

namespace RecordQuery.Grouping

open RecordQuery.Source

/-! ## The values of one identifier -/

/-- The identifier of a value that is a version of something. -/
def identifier? (value : Value) : Option ItemId :=
  value.versioned?.map Prod.fst

/-- The values that are versions of an item, each with its version, in order. -/
def versionsOf (id : ItemId) (values : List Value) : List (Version × Value) :=
  values.filterMap fun value =>
    (value.versioned?.filter fun found => found.1 = id).map fun found => (found.2, value)

/-- Of several versions, the last among those that are at least as great as all others. -/
def lastGreatest (versions : List (Version × Value)) : Option (Version × Value) :=
  (versions.filter fun version => versions.all fun other => (compare other.1 version.1).isLE).getLast?

/-- The last value of greatest version of an item. -/
def newest? (id : ItemId) (values : List Value) : Option Value :=
  (lastGreatest (versionsOf id values)).map Prod.snd

/-- The last value of greatest version of each item, the items in the order in which they occur
first. -/
def newestOfEach (values : List Value) : List Value :=
  (values.filterMap identifier?).eraseDups.filterMap (newest? · values)

/-- The identifier of a value is that of the item that it is a version of. -/
theorem identifier?_eq_some {value : Value} {id : ItemId} :
    identifier? value = some id ↔ ∃ version, value.versioned? = some (id, version) := by
  unfold identifier?
  rcases value.versioned? with _ | ⟨other, version⟩ <;> simp

/-- The versions of an item are the values that are versions of it. -/
theorem mem_versionsOf {id : ItemId} {version : Version} {value : Value} {values : List Value} :
    (version, value) ∈ versionsOf id values ↔
      value ∈ values ∧ value.versioned? = some (id, version) := by
  unfold versionsOf
  rw [List.mem_filterMap]
  constructor
  · rintro ⟨found, hfound, hpair⟩
    obtain ⟨pair, hfilter, hmk⟩ := Option.map_eq_some_iff.mp hpair
    obtain ⟨rfl, rfl⟩ := Prod.mk.inj hmk
    obtain ⟨hsome, hid⟩ := Option.filter_eq_some_iff.mp hfilter
    exact ⟨hfound, hsome.trans (by rw [← of_decide_eq_true hid])⟩
  · rintro ⟨hvalue, hversioned⟩
    exact ⟨value, hvalue, by simp [hversioned]⟩

/-- Values that are no versions of anything have no part in the newest of each. -/
theorem newestOfEach_filter_versioned (values : List Value) :
    newestOfEach (values.filter fun value => value.versioned?.isSome) = newestOfEach values := by
  have hids : (values.filter fun value => value.versioned?.isSome).filterMap identifier? =
      values.filterMap identifier? := by
    rw [List.filterMap_filter]
    congr 1
    funext value
    unfold identifier?
    rcases value.versioned? <;> rfl
  have hversions : ∀ id, versionsOf id (values.filter fun value => value.versioned?.isSome) =
      versionsOf id values := by
    intro id
    unfold versionsOf
    rw [List.filterMap_filter]
    congr 1
    funext value
    rcases value.versioned? <;> rfl
  simp only [newestOfEach, newest?, hids, hversions]

/-! ## The last of the greatest -/

/-- A version is less than another exactly if that one is not at most as great. -/
theorem lt_iff_not_isLE {a b : Version} : compare a b = .lt ↔ ¬(compare b a).isLE := by
  have hswap : compare b a = (compare a b).swap := Std.OrientedCmp.eq_swap
  rw [hswap]
  cases compare a b <;> decide

/-- Of two versions one is at most as great as the other. -/
theorem isLE_of_not_isLE {a b : Version} (h : ¬(compare a b).isLE) : (compare b a).isLE := by
  rw [lt_iff_not_isLE.mpr h]
  rfl

/-- Among some versions there is a greatest. -/
theorem exists_greatest (version : Version × Value) (versions : List (Version × Value)) :
    ∃ greatest ∈ version :: versions,
      ∀ other ∈ version :: versions, (compare other.1 greatest.1).isLE := by
  induction versions generalizing version with
  | nil =>
      refine ⟨version, List.mem_singleton_self _, ?_⟩
      intro other hother
      obtain rfl := List.mem_singleton.mp hother
      exact Std.ReflCmp.isLE_rfl
  | cons next rest ih =>
      obtain ⟨greatest, hmem, hgreatest⟩ := ih next
      by_cases hle : (compare version.1 greatest.1).isLE
      · exact ⟨greatest, List.mem_cons_of_mem _ hmem, List.forall_mem_cons.mpr ⟨hle, hgreatest⟩⟩
      · have hge := isLE_of_not_isLE hle
        refine ⟨version, List.mem_cons_self, List.forall_mem_cons.mpr ⟨Std.ReflCmp.isLE_rfl, ?_⟩⟩
        exact fun other hother => Std.TransCmp.isLE_trans (hgreatest other hother) hge

/-- The last of the greatest is one of the versions, and none is greater. -/
theorem lastGreatest_spec {versions : List (Version × Value)} {winner : Version × Value}
    (h : lastGreatest versions = some winner) :
    winner ∈ versions ∧ ∀ other ∈ versions, (compare other.1 winner.1).isLE := by
  have hmem := List.mem_filter.mp (List.mem_of_getLast? h)
  exact ⟨hmem.1, List.all_eq_true.mp hmem.2⟩

/-- Some version is the last of the greatest, unless there is none at all. -/
theorem exists_lastGreatest {version : Version × Value} {versions : List (Version × Value)}
    (hmem : version ∈ versions) : ∃ winner, lastGreatest versions = some winner := by
  obtain ⟨first, rest, rfl⟩ := List.exists_cons_of_ne_nil (List.ne_nil_of_mem hmem)
  obtain ⟨greatest, hgreatest, hall⟩ := exists_greatest first rest
  refine Option.isSome_iff_exists.mp ?_
  rw [lastGreatest, List.getLast?_isSome]
  exact List.ne_nil_of_mem (List.mem_filter.mpr ⟨hgreatest, List.all_eq_true.mpr hall⟩)

/-- **One more version** wins unless the winner before it is strictly greater. -/
theorem lastGreatest_concat (versions : List (Version × Value)) (next : Version × Value) :
    lastGreatest (versions ++ [next]) =
      some (match lastGreatest versions with
        | some winner => if (compare winner.1 next.1).isLE then next else winner
        | none => next) := by
  by_cases hall : ∀ other ∈ versions, (compare other.1 next.1).isLE
  · -- nothing before is strictly greater, so that the new one ends the list of the greatest
    have hnext : lastGreatest (versions ++ [next]) = some next := by
      simp [lastGreatest, List.filter_append, List.all_eq_true.mpr hall]
    rcases hwinner : lastGreatest versions with _ | winner
    · exact hnext
    · rw [hnext]
      simp [hall winner (lastGreatest_spec hwinner).1]
  · -- the new one is left out, and everything that was greatest stays so
    obtain ⟨greater, hmem, hgreater⟩ : ∃ other ∈ versions, ¬(compare other.1 next.1).isLE := by
      simpa using hall
    obtain ⟨winner, hwinner⟩ := exists_lastGreatest hmem
    have hstrict : ¬(compare winner.1 next.1).isLE := fun hle =>
      hgreater (Std.TransCmp.isLE_trans ((lastGreatest_spec hwinner).2 greater hmem) hle)
    have hsame : ∀ version ∈ versions,
        ((versions ++ [next]).all fun other => (compare other.1 version.1).isLE) =
          versions.all fun other => (compare other.1 version.1).isLE := by
      intro version _
      rw [List.all_append, Bool.and_eq_left_iff_imp]
      intro hversion
      have hle := List.all_eq_true.mp hversion greater hmem
      simpa using Std.TransCmp.isLE_trans (isLE_of_not_isLE hgreater) hle
    have hout : ((versions ++ [next]).all fun other => (compare other.1 next.1).isLE) = false := by
      refine Bool.eq_false_iff.mpr fun hle => hgreater ?_
      exact List.all_eq_true.mp hle greater (List.mem_append_left _ hmem)
    rw [hwinner]
    simp only [hstrict, Bool.false_eq_true, if_false]
    rw [← hwinner, lastGreatest, List.filter_append, List.filter_congr hsame]
    rw [List.filter_cons_of_neg (by rw [hout]; exact Bool.false_ne_true), List.filter_nil,
      List.append_nil]
    rfl

/-! ## One more value -/

section Concat

variable {item : Value} {id : ItemId} {version : Version}

/-- One value more is one more version of its item, and of no other. -/
theorem versionsOf_concat (other : ItemId) (values : List Value)
    (h : item.versioned? = some (id, version)) :
    versionsOf other (values ++ [item]) =
      versionsOf other values ++ (if id = other then [(version, item)] else []) := by
  rw [versionsOf, List.filterMap_append, ← versionsOf]
  congr 1
  rw [List.filterMap_cons, h, List.filterMap_nil]
  by_cases hid : id = other <;> simp [Option.filter, hid]

/-- A value is no version of another item. -/
theorem newest?_concat_of_ne {other : ItemId} (values : List Value)
    (h : item.versioned? = some (id, version)) (hother : other ≠ id) :
    newest? other (values ++ [item]) = newest? other values := by
  rw [newest?, versionsOf_concat other values h, if_neg hother.symm, List.append_nil]
  rfl

/-- A value is the newest of its item unless the newest before it is strictly greater. -/
theorem newest?_concat_self (values : List Value) (h : item.versioned? = some (id, version)) :
    newest? id (values ++ [item]) =
      some (match lastGreatest (versionsOf id values) with
        | some winner => if (compare winner.1 version).isLE then item else winner.2
        | none => item) := by
  rw [newest?, versionsOf_concat id values h, if_pos rfl, lastGreatest_concat]
  rcases lastGreatest (versionsOf id values) with _ | winner
  · rfl
  · exact congrArg some (apply_ite Prod.snd _ _ _)

/-- A value that is no version of anything has no part in the newest of each. -/
theorem newestOfEach_concat_of_not_versioned (values : List Value) (h : item.versioned? = none) :
    newestOfEach (values ++ [item]) = newestOfEach values := by
  rw [← newestOfEach_filter_versioned (values ++ [item]), List.filter_append]
  simp [h, newestOfEach_filter_versioned]

/-- The newest value of an item is a version of it. -/
theorem versioned?_of_newest? {values : List Value} {winner : Value}
    (h : newest? id values = some winner) :
    ∃ version, lastGreatest (versionsOf id values) = some (version, winner) ∧
      winner.versioned? = some (id, version) := by
  obtain ⟨⟨version, value⟩, hlast, rfl⟩ := Option.map_eq_some_iff.mp h
  exact ⟨version, hlast, (mem_versionsOf.mp (lastGreatest_spec hlast).1).2⟩

/-- Every identifier that occurs has a newest value. -/
theorem exists_newest? {values : List Value} (h : id ∈ values.filterMap identifier?) :
    ∃ winner, newest? id values = some winner := by
  obtain ⟨value, hvalue, hid⟩ := List.mem_filterMap.mp h
  obtain ⟨version, hversioned⟩ := identifier?_eq_some.mp hid
  obtain ⟨winner, hwinner⟩ := exists_lastGreatest (mem_versionsOf.mpr ⟨hvalue, hversioned⟩)
  exact ⟨winner.2, by rw [newest?, hwinner]; rfl⟩

/-- An identifier that does not occur has no newest value. -/
theorem newest?_eq_none {values : List Value} (h : id ∉ values.filterMap identifier?) :
    newest? id values = none := by
  refine Option.eq_none_iff_forall_ne_some.mpr fun winner hwinner => h ?_
  obtain ⟨version, hlast, hversioned⟩ := versioned?_of_newest? hwinner
  have hmem := (mem_versionsOf.mp (lastGreatest_spec hlast).1).1
  exact List.mem_filterMap.mpr ⟨winner, hmem, identifier?_eq_some.mpr ⟨version, hversioned⟩⟩

end Concat

/-! ## Placing -/

/-- A value that is no version of anything has no place among the winners. -/
theorem place_of_not_versioned {item : Value} (h : item.versioned? = none)
    (winners : List Value) : place item winners = winners := by
  induction winners with
  | nil => simp [place, h]
  | cons winner rest ih => simp [place, h, ih]

section Place

variable {item : Value} {id : ItemId} {version : Version}
  (h : item.versioned? = some (id, version)) {ids : List ItemId} {best : ItemId → Option Value}
  (hbest : ∀ other ∈ ids, ∃ winner, best other = some winner ∧ identifier? winner = some other)

include h hbest

/-- An item whose identifier has no winner yet comes behind all others. -/
theorem place_of_not_mem (hid : id ∉ ids) :
    place item (ids.filterMap best) = ids.filterMap best ++ [item] := by
  induction ids with
  | nil => simp [place, h]
  | cons other rest ih =>
      obtain ⟨winner, hwinner, hidentifier⟩ := hbest other List.mem_cons_self
      obtain ⟨version', hversioned⟩ := identifier?_eq_some.mp hidentifier
      obtain ⟨hne, hout⟩ := not_or.mp (mt List.mem_cons.mpr hid)
      have hrest := ih (fun other hother => hbest other (List.mem_cons_of_mem _ hother)) hout
      rw [List.filterMap_cons, hwinner]
      simp only [place, h, hversioned, if_neg hne, hrest, List.cons_append]

/-- An item whose identifier has a winner takes its place unless that one is strictly greater, and
all others stay. -/
theorem place_of_mem {best' : ItemId → Option Value} {winner : Value} {version' : Version}
    (hsame : ∀ other, other ≠ id → best' other = best other) (hwinner : best id = some winner)
    (hversioned : winner.versioned? = some (id, version'))
    (hbetter : best' id = some (if (compare version' version).isLE then item else winner))
    (hnodup : ids.Nodup) (hid : id ∈ ids) :
    place item (ids.filterMap best) = ids.filterMap best' := by
  induction ids with
  | nil => cases hid
  | cons other rest ih =>
      obtain ⟨hout, hrest⟩ := List.nodup_cons.mp hnodup
      by_cases heq : other = id
      · subst heq
        have htail : rest.filterMap best' = rest.filterMap best :=
          List.filterMap_congr fun other hother => hsame other fun heq => hout (heq ▸ hother)
        have hflip : (compare version version').isGE = (compare version' version).isLE := by
          rw [Bool.eq_iff_iff]
          exact Std.OrientedCmp.isGE_iff_isLE
        rw [List.filterMap_cons, List.filterMap_cons, hwinner, hbetter, htail]
        simp only [place, h, hversioned, if_true, hflip]
        split <;> rfl
      · obtain ⟨winner', hwinner', hidentifier⟩ := hbest other List.mem_cons_self
        obtain ⟨version'', hversioned'⟩ := identifier?_eq_some.mp hidentifier
        have hplace := ih (fun other hother => hbest other (List.mem_cons_of_mem _ hother)) hrest
          ((List.mem_cons.mp hid).resolve_left fun heq' => heq heq'.symm)
        rw [List.filterMap_cons, List.filterMap_cons, hwinner', hsame _ heq, hwinner']
        simp only [place, h, hversioned', if_neg fun heq' => heq (Eq.symm heq'), hplace]

end Place

/-! ## Placing one value after another -/

/-- **One step**: placing a value among the winners of a list gives the winners of the list with
that value at its end. -/
theorem place_newestOfEach (values : List Value) (item : Value) :
    place item (newestOfEach values) = newestOfEach (values ++ [item]) := by
  have hbest : ∀ id ∈ (values.filterMap identifier?).eraseDups,
      ∃ winner, newest? id values = some winner ∧ identifier? winner = some id := by
    intro id hid
    obtain ⟨winner, hwinner⟩ := exists_newest? (List.mem_eraseDups.mp hid)
    obtain ⟨version, -, hversioned⟩ := versioned?_of_newest? hwinner
    exact ⟨winner, hwinner, identifier?_eq_some.mpr ⟨version, hversioned⟩⟩
  rcases h : item.versioned? with _ | ⟨id, version⟩
  · rw [place_of_not_versioned h, newestOfEach_concat_of_not_versioned values h]
  · have hsame : ∀ other, other ≠ id → newest? other (values ++ [item]) = newest? other values :=
      fun other hother => newest?_concat_of_ne values h hother
    have hself := newest?_concat_self values h
    have hids : (values ++ [item]).filterMap identifier? = values.filterMap identifier? ++ [id] := by
      simp [identifier?, h]
    rw [newestOfEach, newestOfEach, hids, List.eraseDups_append]
    by_cases hmem : id ∈ values.filterMap identifier?
    · have hknown : [id].removeAll (values.filterMap identifier?) = [] := by
        simpa [List.removeAll] using hmem
      obtain ⟨winner, hwinner⟩ := exists_newest? hmem
      obtain ⟨version', hlast, hversioned⟩ := versioned?_of_newest? hwinner
      rw [hlast] at hself
      rw [hknown, List.eraseDups_nil, List.append_nil]
      exact place_of_mem h hbest hsame hwinner hversioned hself (nodup_eraseDups _)
        (List.mem_eraseDups.mpr hmem)
    · have hnew : [id].removeAll (values.filterMap identifier?) = [id] := by
        simpa [List.removeAll] using hmem
      have hold := List.filterMap_congr fun other hother =>
        hsame other fun heq => hmem (List.mem_eraseDups.mp (heq ▸ hother))
      rw [Option.map_eq_none_iff.mp (newest?_eq_none hmem)] at hself
      rw [place_of_not_mem h hbest (mt List.mem_eraseDups.mp hmem), hnew, List.filterMap_append,
        hold]
      simp [List.eraseDups_cons, hself]

/-- **Placing one value after another computes the newest of each**: the winners are what the list
of all values placed says, whatever the order of the values. -/
theorem foldl_place (values : List Value) :
    values.foldl (fun winners value => place value winners) [] = newestOfEach values := by
  have hfrom : ∀ rest placed : List Value,
      rest.foldl (fun winners value => place value winners) (newestOfEach placed) =
        newestOfEach (placed ++ rest) := by
    intro rest
    induction rest with
    | nil => exact fun placed => (congrArg newestOfEach (List.append_nil placed)).symm
    | cons value rest ih =>
        intro placed
        rw [List.foldl_cons, place_newestOfEach, ih, List.append_assoc]
        rfl
  exact hfrom values []

/-! ## Grouping values at hand -/

/-- The greatest versions among values at hand, if the lambdas have an answer to each. -/
theorem result_grouped {source : Source} (hsource : source.advance = Cursor.read)
    {binders : List Binder} {passes : Value → Bool} {values : List Value}
    (hstart : ∀ tape, source.start.run ⟨[], .available tape⟩ =
      ⟨.ok .workingSet, ⟨[], .taken tape⟩, []⟩)
    (hpasses : ∀ value ∈ values, ∀ tape,
      (Binder.testAll binders value).Gives ⟨[], .taken tape⟩ (passes value)) :
    ((source.grouped binders).run ⟨[], .available (.ofValues values)⟩).value =
      .ok (newestOfEach (values.filter passes)) := by
  have hvisit : ∀ value ∈ values, ∀ (winners : List Value) tape,
      (do return .more (if ← Binder.testAll binders value then place value winners else winners) :
        Eval (Progress (List Value) (List Value))).Gives ⟨[], .taken tape⟩
        (.more (if passes value then place value winners else winners)) :=
    fun value hmem winners tape => (hpasses value hmem tape).bind (Eval.gives_pure _)
  have hread := readWithin_workingSet hsource hvisit id []
  have hbound : Cursor.workingSet.bound ⟨[], .taken (.ofValues values)⟩ = values.length :=
    Tape.itemCount_ofValues values
  rw [← foldl_place, List.foldl_filter]
  unfold grouped Source.read
  rw [Eval.run_bind_ok (by rw [hstart]), hstart, readFrom]
  show ((source.readWithin _ id (Cursor.workingSet.bound _ + 1) .workingSet []).run _).value = _
  rw [hbound]
  exact hread

end RecordQuery.Grouping
