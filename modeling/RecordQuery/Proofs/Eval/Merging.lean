import Mathlib.Data.List.Induction
import Mathlib.Data.List.Nodup
import Mathlib.Data.List.Pairwise
import Mathlib.Data.Option.Basic
import RecordQuery.Proofs.Eval.Newest
import RecordQuery.Proofs.Version.Order

/-!
# Grouping in parts

The newest of each of some values can be computed from the newest of each of their parts. What is
kept of an item does not depend on other items, nor on the order of the values, ties aside.

The reason is that the last of the greatest versions of two lists is one of the last of the greatest
of either (`Grouping.later`, an associative choice): grouping leaves of every item the only version
that later groupings look at (`Grouping.versionsOf_newestOfEach`). The order in which identifiers
occur first is that of a list of identifiers without repetitions, for which the same holds
(`eraseDups_append_eraseDups`).

* `Grouping.newestOfEach_append`: parts can be grouped first.
* `Grouping.newestOfEach_filter`: grouping and keeping some identifiers can be exchanged.
* `Grouping.mem_filterMap_versioned?_newestOfEach`: which versions are kept, by greatness alone.

**Main statement** (`Expr.latest_merges`): these laws for `latest`.
-/

namespace RecordQuery

/-! ## Without repetitions -/

section eraseDups

variable {α : Type} [DecidableEq α]

/-- A list without repetitions stays as it is. -/
theorem eraseDups_of_nodup {l : List α} (h : l.Nodup) : l.eraseDups = l := by
  induction l with
  | nil => rfl
  | cons a rest ih =>
      obtain ⟨hout, hrest⟩ := List.nodup_cons.mp h
      have hfilter : rest.filter (fun b => !b == a) = rest := by
        rw [List.filter_eq_self]
        rintro b hb
        have hne : b ≠ a := fun heq => hout (heq ▸ hb)
        simpa using hne
      rw [List.eraseDups_cons, hfilter, ih hrest]

/-- First occurrences among those that pass a test are those among all that pass it. -/
theorem eraseDups_filter (p : α → Bool) : ∀ l : List α,
    (l.filter p).eraseDups = l.eraseDups.filter p
  | [] => rfl
  | a :: rest => by
    have hrest := eraseDups_filter p (rest.filter fun b => !b == a)
    rw [List.eraseDups_cons, List.filter_cons, List.filter_cons, ← hrest, List.filter_filter]
    split
    · rw [List.eraseDups_cons, List.filter_filter]
      congr 3
      funext b
      exact Bool.and_comm _ _
    · rename_i hp
      congr 1
      refine List.filter_congr fun b _ => ?_
      by_cases heq : b = a
      · simp [heq, hp]
      · simp [heq]
termination_by l => l.length
decreasing_by exact Nat.lt_succ_of_le (List.length_filter_le _ _)

/-- Repetitions can be erased in parts first. -/
theorem eraseDups_append_eraseDups (as bs : List α) :
    (as.eraseDups ++ bs.eraseDups).eraseDups = (as ++ bs).eraseDups := by
  have hremove : ∀ l : List α, l.removeAll as.eraseDups = l.removeAll as := by
    intro l
    refine List.filter_congr fun b _ => ?_
    simp [List.mem_eraseDups]
  rw [List.eraseDups_append, List.eraseDups_append, hremove, List.removeAll, List.removeAll,
    eraseDups_filter, eraseDups_filter, eraseDups_of_nodup (nodup_eraseDups as),
    eraseDups_of_nodup (nodup_eraseDups bs)]

end eraseDups

namespace Grouping

/-! ## The later of two greatest -/

/-- Of two versions with their values, the second, unless the first is strictly greater. -/
def later : Option (Version × Value) → Option (Version × Value) → Option (Version × Value)
  | none, second => second
  | first, none => first
  | some first, some second => if (compare first.1 second.1).isLE then some second else some first

/-- Of one version and none it is the one. -/
theorem later_none (first : Option (Version × Value)) : later first none = first := by
  cases first <;> rfl

/-- Which of three versions comes out does not depend on which two of them meet first. -/
theorem later_assoc (a b c : Option (Version × Value)) :
    later (later a b) c = later a (later b c) := by
  rcases a with _ | a
  · rfl
  rcases b with _ | b
  · rfl
  rcases c with _ | c
  · rw [later_none, later_none]
  by_cases hab : (compare a.1 b.1).isLE <;> by_cases hbc : (compare b.1 c.1).isLE
  · have hac := Std.TransCmp.isLE_trans hab hbc
    simp [later, hab, hbc, hac]
  · simp [later, hab, hbc]
  · simp [later, hab, hbc]
  · have hac : ¬(compare a.1 c.1).isLE := fun hac =>
      hbc (Std.TransCmp.isLE_trans (isLE_of_not_isLE hab) hac)
    simp [later, hab, hbc, hac]

/-- **The last of the greatest of two lists** is that of the last of the greatest of either. -/
theorem lastGreatest_append (versions versions' : List (Version × Value)) :
    lastGreatest (versions ++ versions') =
      later (lastGreatest versions) (lastGreatest versions') := by
  induction versions' using List.reverseRecOn with
  | nil =>
      rw [List.append_nil]
      exact (later_none _).symm
  | append_singleton rest next ih =>
      have hconcat : ∀ versions, lastGreatest (versions ++ [next]) =
          later (lastGreatest versions) (some next) := by
        intro versions
        rw [lastGreatest_concat]
        rcases lastGreatest versions with _ | winner
        · rfl
        · exact apply_ite some _ _ _
      rw [← List.append_assoc, hconcat, ih, later_assoc, ← hconcat]

/-- Of one version at most it is that one. -/
theorem lastGreatest_toList (winner : Option (Version × Value)) :
    lastGreatest winner.toList = winner := by
  rcases winner with _ | winner
  · rfl
  · exact lastGreatest_concat [] winner

/-! ## What grouping leaves of an item -/

/-- The versions of an item among two lists are those among each, one after another. -/
theorem versionsOf_append (id : ItemId) (values values' : List Value) :
    versionsOf id (values ++ values') = versionsOf id values ++ versionsOf id values' :=
  List.filterMap_append

/-- The winners have the identifiers of the values, each once. -/
theorem filterMap_identifier?_newestOfEach (values : List Value) :
    (newestOfEach values).filterMap identifier? = (values.filterMap identifier?).eraseDups := by
  have hids := (isNewestOfEach_iff.mpr (Eq.refl (newestOfEach values))).identifiers
  have hfilter := congrArg (List.filterMap id) hids
  rwa [List.filterMap_map, List.filterMap_map, Function.id_comp, Function.id_comp,
    List.filterMap_some] at hfilter

/-- Where nothing comes twice, what is kept of one thing only is there once. -/
theorem filterMap_ite_of_nodup {ids : List ItemId} (hnodup : ids.Nodup) {id : ItemId} {α : Type}
    {result : Option α} (hmem : result.isSome → id ∈ ids) :
    (ids.filterMap fun other => if other = id then result else none) = result.toList := by
  induction ids with
  | nil =>
      rcases result with _ | a
      · rfl
      · cases hmem rfl
  | cons other rest ih =>
      obtain ⟨hout, hrest⟩ := List.nodup_cons.mp hnodup
      by_cases heq : other = id
      · subst heq
        have hnone :
            (rest.filterMap fun other' => if other' = other then result else none) = [] := by
          refine List.filterMap_eq_nil_iff.mpr fun other' hother => if_neg fun heq => ?_
          exact hout (heq ▸ hother)
        rw [List.filterMap_cons, if_pos rfl, hnone]
        rcases result with _ | a <;> rfl
      · rw [List.filterMap_cons, if_neg heq]
        exact ih hrest fun hsome => (List.mem_cons.mp (hmem hsome)).resolve_left (Ne.symm heq)

/-- **Grouping leaves of an item its newest value** and nothing else. -/
theorem versionsOf_newestOfEach (id : ItemId) (values : List Value) :
    versionsOf id (newestOfEach values) = (lastGreatest (versionsOf id values)).toList := by
  have hversion : ∀ other, (newest? other values).bind (fun value =>
      (value.versioned?.filter fun found => found.1 = id).map fun found => (found.2, value)) =
        if other = id then lastGreatest (versionsOf id values) else none := by
    intro other
    rcases hnewest : newest? other values with _ | winner
    · have hnone := Option.map_eq_none_iff.mp hnewest
      split
      · rename_i heq
        rw [← heq, hnone]
        rfl
      · rfl
    · obtain ⟨version, hlast, hversioned⟩ := versioned?_of_newest? hnewest
      rw [Option.bind_some, hversioned]
      split
      · rename_i heq
        subst heq
        rw [hlast]
        simp [Option.filter]
      · rename_i hne
        simp [Option.filter, hne]
  have hmem : (lastGreatest (versionsOf id values)).isSome →
      id ∈ (values.filterMap identifier?).eraseDups := by
    intro hsome
    by_contra hout
    have hnone := newest?_eq_none (mt List.mem_eraseDups.mpr hout)
    rw [Option.map_eq_none_iff.mp hnone] at hsome
    cases hsome
  rw [newestOfEach, versionsOf, List.filterMap_filterMap]
  simp only [hversion]
  exact filterMap_ite_of_nodup (nodup_eraseDups _) hmem

/-! ## Laws -/

/-- **Parts can be grouped first.** -/
theorem newestOfEach_append (values values' : List Value) :
    newestOfEach (values ++ values') =
      newestOfEach (newestOfEach values ++ newestOfEach values') := by
  have hids : ((newestOfEach values ++ newestOfEach values').filterMap identifier?).eraseDups =
      ((values ++ values').filterMap identifier?).eraseDups := by
    rw [List.filterMap_append, filterMap_identifier?_newestOfEach,
      filterMap_identifier?_newestOfEach, eraseDups_append_eraseDups, List.filterMap_append]
  have hnewest : ∀ id, newest? id (newestOfEach values ++ newestOfEach values') =
      newest? id (values ++ values') := by
    intro id
    rw [newest?, newest?, versionsOf_append, versionsOf_append, versionsOf_newestOfEach,
      versionsOf_newestOfEach, lastGreatest_append, lastGreatest_append, lastGreatest_toList,
      lastGreatest_toList]
  rw [newestOfEach.eq_def (values ++ values'), newestOfEach.eq_def (_ ++ newestOfEach values'), hids]
  simp only [hnewest]

/-- What is grouped stays as it is. -/
theorem newestOfEach_newestOfEach (values : List Value) :
    newestOfEach (newestOfEach values) = newestOfEach values := by
  have happend := newestOfEach_append values []
  have hnil : newestOfEach [] = [] := rfl
  rw [hnil, List.append_nil, List.append_nil] at happend
  exact happend.symm

/-- **Grouping and keeping some identifiers can be exchanged.** -/
theorem newestOfEach_filter {keep : ItemId → Bool} {p : Value → Bool}
    (h : ∀ value id, identifier? value = some id → p value = keep id) (values : List Value) :
    newestOfEach (values.filter p) = (newestOfEach values).filter p := by
  have hids : (values.filter p).filterMap identifier? =
      (values.filterMap identifier?).filter keep := by
    rw [List.filterMap_filter, List.filter_filterMap]
    refine List.filterMap_congr fun value _ => ?_
    rcases hid : identifier? value with _ | id
    · split <;> rfl
    · rw [h value id hid]
      rfl
  have hversions : ∀ id, keep id → versionsOf id (values.filter p) = versionsOf id values := by
    intro id hkeep
    rw [versionsOf, versionsOf, List.filterMap_filter]
    refine List.filterMap_congr fun value _ => ?_
    rcases hversioned : value.versioned? with _ | ⟨other, version⟩
    · split <;> rfl
    · have hp := h value other (identifier?_eq_some.mpr ⟨version, hversioned⟩)
      by_cases heq : other = id
      · rw [hp, heq, if_pos hkeep]
      · simp [Option.filter, heq]
  have hnewest : ∀ id, keep id → newest? id (values.filter p) = newest? id values := by
    intro id hkeep
    rw [newest?, hversions id hkeep]
    rfl
  have hwinner : ∀ id, (newest? id values).filter p =
      if keep id then newest? id (values.filter p) else none := by
    intro id
    rcases hwinner : newest? id values with _ | winner
    · split
      · rename_i hkeep
        rw [hnewest id hkeep, hwinner]
        rfl
      · rfl
    · obtain ⟨version, -, hversioned⟩ := versioned?_of_newest? hwinner
      have hp := h winner id (identifier?_eq_some.mpr ⟨version, hversioned⟩)
      split
      · rename_i hkeep
        rw [hnewest id hkeep, hwinner, Option.filter, hp, if_pos hkeep]
      · rename_i hout
        rw [Option.filter, hp, if_neg hout]
  rw [newestOfEach, newestOfEach, hids, eraseDups_filter, List.filterMap_filter,
    List.filter_filterMap]
  exact List.filterMap_congr fun id _ => (hwinner id).symm

/-! ## Permutations -/

/-- The winners are the newest values of their items. -/
theorem mem_newestOfEach {values : List Value} {winner : Value} :
    winner ∈ newestOfEach values ↔ ∃ id, newest? id values = some winner := by
  rw [newestOfEach, List.mem_filterMap]
  constructor
  · rintro ⟨id, -, hnewest⟩
    exact ⟨id, hnewest⟩
  · rintro ⟨id, hnewest⟩
    refine ⟨id, ?_, hnewest⟩
    by_contra hout
    have hnone := newest?_eq_none (mt List.mem_eraseDups.mpr hout)
    rw [hnone] at hnewest
    cases hnewest

/-- No winner is there twice, since no two have the same identifier. -/
theorem nodup_newestOfEach (values : List Value) : (newestOfEach values).Nodup := by
  have hids := (isNewestOfEach_iff.mpr (Eq.refl (newestOfEach values))).identifiers
  refine List.Nodup.of_map identifier? ?_
  rw [hids]
  exact (nodup_eraseDups _).map (Option.some_injective _)

/-- **Which versions are kept**: those of which no greater one is there. -/
theorem mem_filterMap_versioned?_newestOfEach {values : List Value} {id : ItemId}
    {version : Version} :
    (id, version) ∈ (newestOfEach values).filterMap Value.versioned? ↔
      (id, version) ∈ values.filterMap Value.versioned? ∧
        ∀ version', (id, version') ∈ values.filterMap Value.versioned? →
          (compare version' version).isLE := by
  rw [List.mem_filterMap, List.mem_filterMap]
  constructor
  · rintro ⟨winner, hwinner, hversioned⟩
    obtain ⟨id', hnewest⟩ := mem_newestOfEach.mp hwinner
    obtain ⟨version', hlast, hversioned'⟩ := versioned?_of_newest? hnewest
    obtain ⟨rfl, rfl⟩ : id' = id ∧ version' = version := by
      simpa [hversioned] using hversioned'.symm
    obtain ⟨hmem, hgreatest⟩ := lastGreatest_spec hlast
    refine ⟨⟨winner, (mem_versionsOf.mp hmem).1, hversioned⟩, fun version'' hother => ?_⟩
    obtain ⟨other, hother, hversion⟩ := List.mem_filterMap.mp hother
    exact hgreatest (version'', other) (mem_versionsOf.mpr ⟨hother, hversion⟩)
  · rintro ⟨⟨value, hvalue, hversioned⟩, hgreatest⟩
    have hid : id ∈ values.filterMap identifier? :=
      List.mem_filterMap.mpr ⟨value, hvalue, identifier?_eq_some.mpr ⟨version, hversioned⟩⟩
    obtain ⟨winner, hnewest⟩ := exists_newest? hid
    obtain ⟨version', hlast, hversioned'⟩ := versioned?_of_newest? hnewest
    obtain ⟨hmem, hgreatest'⟩ := lastGreatest_spec hlast
    -- neither version is greater than the other, so they are one
    have hle := hgreatest version'
      (List.mem_filterMap.mpr ⟨winner, (mem_versionsOf.mp hmem).1, hversioned'⟩)
    have hge := hgreatest' (version, value) (mem_versionsOf.mpr ⟨hvalue, hversioned⟩)
    obtain rfl : version' = version :=
      Std.LawfulEqOrd.eq_of_compare (Std.OrientedCmp.isLE_antisymm hle hge)
    exact ⟨winner, mem_newestOfEach.mpr ⟨id, hnewest⟩, hversioned'⟩

/-- What is kept was there, and is a version of something. -/
theorem mem_and_versioned_of_mem_newestOfEach {values : List Value} {winner : Value}
    (h : winner ∈ newestOfEach values) :
    winner ∈ values ∧ ∃ pair, winner.versioned? = some pair := by
  obtain ⟨id, hnewest⟩ := mem_newestOfEach.mp h
  obtain ⟨version, hlast, hversioned⟩ := versioned?_of_newest? hnewest
  exact ⟨(mem_versionsOf.mp (lastGreatest_spec hlast).1).1, (id, version), hversioned⟩

section perm

variable {values values' : List Value} (h : values.Perm values')

include h

/-- **The versions that are kept do not depend on the order of the values.** -/
theorem mem_filterMap_versioned?_iff_of_perm (pair : ItemId × Version) :
    pair ∈ (newestOfEach values).filterMap Value.versioned? ↔
      pair ∈ (newestOfEach values').filterMap Value.versioned? := by
  obtain ⟨id, version⟩ := pair
  have hmem : ∀ pair, pair ∈ values.filterMap Value.versioned? ↔
      pair ∈ values'.filterMap Value.versioned? := fun _ => (h.filterMap _).mem_iff
  simp only [mem_filterMap_versioned?_newestOfEach, hmem]

/-- Where no version is there twice, the same values are kept. -/
theorem mem_newestOfEach_of_perm (hnodup : (values.filterMap Value.versioned?).Nodup)
    {winner : Value} (hwinner : winner ∈ newestOfEach values) :
    winner ∈ newestOfEach values' := by
  obtain ⟨hmem, pair, hversioned⟩ := mem_and_versioned_of_mem_newestOfEach hwinner
  have hpair := (mem_filterMap_versioned?_iff_of_perm h pair).mp
    (List.mem_filterMap.mpr ⟨winner, hwinner, hversioned⟩)
  obtain ⟨winner', hwinner', hversioned'⟩ := List.mem_filterMap.mp hpair
  have hmem' := h.mem_iff.mpr (mem_and_versioned_of_mem_newestOfEach hwinner').1
  -- they are one value, since they are one version
  have heq : winner = winner' := by
    by_contra hne
    have hsymm : Std.Symm fun a b : Value => ∀ pair, a.versioned? = some pair →
        ∀ pair', b.versioned? = some pair' → pair ≠ pair' :=
      ⟨fun a b hab pair hpair pair' hpair' => (hab pair' hpair' pair hpair).symm⟩
    have hapart := (List.pairwise_filterMap.mp hnodup).forall hmem hmem' hne
    exact hapart pair hversioned pair hversioned' rfl
  rw [heq]
  exact hwinner'

/-- **Ties aside, what is kept does not depend on the order of the values**, but for its own
order. -/
theorem perm_newestOfEach (hnodup : (values.filterMap Value.versioned?).Nodup) :
    (newestOfEach values).Perm (newestOfEach values') := by
  have hnodup' : (values'.filterMap Value.versioned?).Nodup := (h.filterMap _).nodup_iff.mp hnodup
  have hapart := nodup_newestOfEach values
  refine (List.perm_ext_iff_of_nodup hapart (nodup_newestOfEach values')).mpr ?_
  exact fun winner => ⟨mem_newestOfEach_of_perm h hnodup, mem_newestOfEach_of_perm h.symm hnodup'⟩

end perm

end Grouping

/-- A version of something has the identifier that it is a version of. -/
theorem Value.identifier?_of_versioned? {value : Value} {id : ItemId} {version : Version}
    (h : value.versioned? = some (id, version)) :
    (value.record? >>= Record.identifier?) = some id := by
  obtain ⟨record, hrecord, hversioned⟩ := Option.bind_eq_some_iff.mp h
  rw [hrecord]
  exact Record.identifier?_of_versioned? hversioned

/-! ## `latest` -/

namespace Expr

/-- `latest` gives the newest of each of the values of its source. -/
theorem value_latest (ctx : Context) (source : Expr) :
    source.latest.value ctx =
      (fun values => .list (Grouping.newestOfEach values)) <$> (source.source ctx).collect := by
  have hgrouped := grouped_eq_newestOfEach ctx source none
  rw [Expr.value, latest, meaning_latest, value_ofSource_latest, hgrouped, ← comp_map]
  rfl

/-- Grouping a list at hand gives its newest values, whatever the state. -/
theorem value_latest_list (ctx : Context) (values : List Value) :
    (literal (.list values)).latest.value ctx =
      pure (.list (Grouping.newestOfEach values)) := by
  have hsource : (literal (.list values)).source ctx = .ofValue (pure (.list values)) := by
    rw [Expr.source, meaning]
    rfl
  rw [value_latest, hsource, Source.collect_ofValue]
  rfl

/-- **`latest` can be computed in parts, and in any order up to ties.** Over a list it gives, from
any state and without a step, what `newestOfEach` makes of the list; over any sequence, what that
makes of the values of the sequence. For all lists of values of any kinds:

* to group what is grouped in two parts is to group the whole, and to group again changes nothing;
* to keep the items whose identifier passes a test and then to group them is to group them and then
  to keep those;
* of a list and a permutation of it, the same versions of the same items are kept; if no two items
  of the list share identifier and version, the same items. -/
theorem latest_merges (ctx : Context) :
    let grouped := Grouping.newestOfEach
    (∀ values, (literal (.list values)).latest.value ctx = pure (.list (grouped values))) ∧
    (∀ source : Expr, source.latest.value ctx =
      (fun values => .list (grouped values)) <$> (source.source ctx).collect) ∧
    (∀ xs ys, grouped (xs ++ ys) = grouped (grouped xs ++ grouped ys)) ∧
    (∀ xs, grouped (grouped xs) = grouped xs) ∧
    (∀ (keep : ItemId → Bool) (xs : List Value),
      let kept := List.filter fun value : Value => (value.record? >>= Record.identifier?).any keep
      grouped (kept xs) = kept (grouped xs)) ∧
    ∀ xs xs' : List Value, xs.Perm xs' →
      (∀ pair, pair ∈ (grouped xs).filterMap Value.versioned? ↔
        pair ∈ (grouped xs').filterMap Value.versioned?) ∧
      ((xs.filterMap Value.versioned?).Nodup → (grouped xs).Perm (grouped xs')) := by
  intro grouped
  refine ⟨value_latest_list ctx, value_latest ctx, Grouping.newestOfEach_append,
    Grouping.newestOfEach_newestOfEach, fun keep xs => ?_, fun xs xs' hperm => ?_⟩
  · have hkeep : ∀ value id, Grouping.identifier? value = some id →
        (value.record? >>= Record.identifier?).any keep = keep id := by
      intro value id hid
      obtain ⟨version, hversioned⟩ := Grouping.identifier?_eq_some.mp hid
      rw [Value.identifier?_of_versioned? hversioned]
      rfl
    exact Grouping.newestOfEach_filter hkeep xs
  · exact ⟨Grouping.mem_filterMap_versioned?_iff_of_perm hperm, Grouping.perm_newestOfEach hperm⟩

/-- Of two versions of one item and one of another, two are kept, also when they come in reverse. -/
theorem latest_merges_reversed :
    let ctx : Context := ⟨.none, none, Catalog.queries []⟩
    let unit (id : String) (major : UInt32) : Value :=
      (Record.versioned "unit" ⟨id⟩ ⟨major, 0, 0, ""⟩).toValue
    let xs : List Value := [unit "a" 1, unit "b" 2, unit "a" 3]
    let xs' : List Value := [unit "a" 3, unit "b" 2, unit "a" 1]
    xs.Perm xs' ∧ (xs.filterMap Value.versioned?).Nodup ∧
      (literal (.list xs)).latest.value ctx = pure (.list [unit "a" 3, unit "b" 2]) ∧
      [unit "a" 3, unit "b" 2].Perm (Grouping.newestOfEach xs') := by
  intro ctx unit xs xs'
  obtain ⟨hvalue, -, -, -, -, hperm⟩ := latest_merges ctx
  have hgrouped : Grouping.newestOfEach xs = [unit "a" 3, unit "b" 2] := rfl
  have hreverse : xs.Perm xs' := List.reverse_perm xs'
  have hnodup : (xs.filterMap Value.versioned?).Nodup := by decide
  refine ⟨hreverse, hnodup, ?_, ?_⟩
  · rw [hvalue, hgrouped]
  · rw [← hgrouped]
    exact (hperm xs xs' hreverse).2 hnodup

end Expr

end RecordQuery
