import Mathlib.Order.Interval.Set.Basic
import RecordQuery.Proofs.Version.Order
import RecordQuery.Proofs.Version.Range

/-!
# Which texts are ranges, and what they mean

A text is a range if it is a version, or an interval: two versions with a comma between them and a
bracket at each end. What it is read as is told for every text by `VersionRange.Reads`, with the
error that comes first where it is neither. The text of an interval is ASCII at both ends, so that
its first and its last byte are characters and can be cut off as bytes
(`VersionRange.slice?_brackets`).

A range means an interval in the order of versions (`VersionRange.interval`), closed or open at
each end as its bracket says.

**Main statement** (`VersionRange.parse_means_interval`): the three together. An interval holds
nothing if its ends are in the wrong order, or if they are the same and not both brackets are
square.
-/

namespace RecordQuery.VersionRange

open RecordQuery.Text

/-! ## Slices -/

/-- What is between a bracket at each end is the slice from the second byte to the last but one. -/
theorem slice?_brackets {opening closing : Char} {inclusive inclusive' : Bool}
    (hopening : Opens opening inclusive) (hclosing : Closes closing inclusive')
    (inner : List Char) :
    slice? (String.ofList (opening :: (inner ++ [closing]))) 1
        ((String.ofList (opening :: (inner ++ [closing]))).utf8ByteSize - 1) =
      some (String.ofList inner) := by
  have hfirst : (String.ofList [opening]).utf8ByteSize = 1 := by cases hopening <;> rfl
  have hlast : (String.ofList [closing]).utf8ByteSize = 1 := by cases hclosing <;> rfl
  have htext : String.ofList (opening :: (inner ++ [closing])) =
      String.ofList [opening] ++ String.ofList inner ++ String.ofList [closing] := by
    rw [← String.ofList_append, ← String.ofList_append]
    rfl
  rw [htext, slice?_eq_some_iff]
  refine ⟨_, _, rfl, hfirst.symm, ?_⟩
  rw [String.utf8ByteSize_append (t := String.ofList [closing]), hlast, Nat.add_sub_cancel]

/-- A text with a bracket at each end has two ends: one character is not enough. -/
theorem exists_inner {text rest front : List Char} {opening closing : Char}
    {inclusive inclusive' : Bool} (hfirst : text = opening :: rest)
    (hlast : text = front ++ [closing]) (hopening : Opens opening inclusive)
    (hclosing : Closes closing inclusive') : ∃ inner, text = opening :: (inner ++ [closing]) := by
  rcases front with _ | ⟨first, inner⟩
  · obtain rfl : opening = closing := (List.cons.inj (hfirst.symm.trans hlast)).1
    exact absurd hclosing hopening.not_closes
  · obtain rfl : opening = first := (List.cons.inj (hfirst.symm.trans hlast)).1
    exact ⟨inner, hlast⟩

/-! ## Reading -/

/-- What a text is read as. Without its blank margin it is empty, or begins with no bracket and is
read as a version, or is an interval; an interval needs a bracket behind and a comma between, and
versions before and after the first comma, the one before it being looked at first. -/
inductive Reads (input : String) : Except VersionError VersionRange → Prop
  /-- A blank text. -/
  | blank (h : trim input.toList = []) : Reads input (.error .empty)
  /-- A text without a bracket before it stands for every version from the one that it is. -/
  | bare {first : Char} {rest : List Char} (h : trim input.toList = first :: rest)
      (hfirst : ∀ inclusive, ¬Opens first inclusive) :
      Reads input (atLeast <$> Version.parse (String.ofList (first :: rest)))
  /-- A text with a bracket before it and none behind. -/
  | unclosed {opening last : Char} {inclusive : Bool} {rest front : List Char}
      (h : trim input.toList = opening :: rest) (h' : trim input.toList = front ++ [last])
      (hopening : Opens opening inclusive) (hlast : ∀ inclusive', ¬Closes last inclusive') :
      Reads input (.error (.invalidRange input))
  /-- A text with brackets and no comma between them. -/
  | uncut {opening closing : Char} {inclusive inclusive' : Bool} {inner : List Char}
      (h : trim input.toList = opening :: (inner ++ [closing])) (hopening : Opens opening inclusive)
      (hclosing : Closes closing inclusive') (hcomma : ',' ∉ inner) :
      Reads input (.error (.invalidRange input))
  /-- An interval whose minimum is no version. -/
  | badMinimum {opening closing : Char} {inclusive inclusive' : Bool} {low high : List Char}
      {e : VersionError} (h : trim input.toList = opening :: (low ++ ',' :: high ++ [closing]))
      (hopening : Opens opening inclusive) (hclosing : Closes closing inclusive')
      (hcomma : ',' ∉ low) (hlow : Version.parse (String.ofList low) = .error e) :
      Reads input (.error e)
  /-- An interval whose maximum is no version, though the minimum is. -/
  | badMaximum {opening closing : Char} {inclusive inclusive' : Bool} {low high : List Char}
      {minimum : Version} {e : VersionError}
      (h : trim input.toList = opening :: (low ++ ',' :: high ++ [closing]))
      (hopening : Opens opening inclusive) (hclosing : Closes closing inclusive')
      (hcomma : ',' ∉ low) (hlow : Version.parse (String.ofList low) = .ok minimum)
      (hhigh : Version.parse (String.ofList high) = .error e) :
      Reads input (.error e)
  /-- An interval. -/
  | interval {opening closing : Char} {inclusive inclusive' : Bool} {low high : List Char}
      {minimum maximum : Version}
      (h : trim input.toList = opening :: (low ++ ',' :: high ++ [closing]))
      (hopening : Opens opening inclusive) (hclosing : Closes closing inclusive')
      (hcomma : ',' ∉ low) (hlow : Version.parse (String.ofList low) = .ok minimum)
      (hhigh : Version.parse (String.ofList high) = .ok maximum) :
      Reads input (.ok (between ⟨minimum, inclusive⟩ ⟨maximum, inclusive'⟩))

/-- What does not end in a bracket is no interval. -/
theorem parseInterval_of_not_closes {input : String} {inclusive : Bool} {body : List Char}
    (h : ∀ last ∈ body.getLast?, ∀ inclusive', ¬Closes last inclusive') :
    parseInterval input inclusive body = .error (.invalidRange input) := by
  have hlast : body.getLast? >>= closingBracket? = none := by
    rcases hbody : body.getLast? with _ | last
    · rfl
    · show closingBracket? last = none
      rw [Option.eq_none_iff_forall_ne_some]
      exact fun inclusive' heq => h last hbody inclusive' (closingBracket?_eq_some_iff.mp heq)
  unfold parseInterval
  rw [hlast]

/-- The reader does what is said of a text. -/
theorem parse_of_reads {input : String} {result : Except VersionError VersionRange}
    (h : Reads input result) : parse input = result := by
  cases h with
  | blank h =>
      unfold parse
      rw [h]
  | bare h hfirst => exact parse_of_not_opens h hfirst
  | @unclosed opening last inclusive rest front h h' hopening hlast =>
      rw [parse_of_opens h hopening, parseInterval_of_not_closes]
      intro last' hlast'
      have hwhole : (opening :: rest).getLast? = some last := by
        rw [← h, h', List.getLast?_concat]
      rcases rest with _ | ⟨next, rest⟩
      · cases hlast'
      · rw [List.getLast?_cons_cons, Option.mem_def.mp hlast', Option.some_inj] at hwhole
        exact hwhole ▸ hlast
  | uncut h hopening hclosing hcomma =>
      rw [parse_of_opens h hopening, parseInterval_concat hclosing, cut_of_not_mem hcomma]
  | badMinimum h hopening hclosing hcomma hlow =>
      rw [parse_of_comma h hopening hclosing hcomma, hlow]
      rfl
  | badMaximum h hopening hclosing hcomma hlow hhigh =>
      rw [parse_of_comma h hopening hclosing hcomma, hlow, hhigh]
      rfl
  | interval h hopening hclosing hcomma hlow hhigh =>
      rw [parse_of_comma h hopening hclosing hcomma, hlow, hhigh]
      rfl

/-- A text with brackets is read as an interval, or for an error. -/
theorem exists_reads_of_brackets {input : String} {opening closing : Char}
    {inclusive inclusive' : Bool} {inner : List Char}
    (h : trim input.toList = opening :: (inner ++ [closing])) (hopening : Opens opening inclusive)
    (hclosing : Closes closing inclusive') : ∃ result, Reads input result := by
  have hjoin := join_cut ',' inner
  have hlow := not_mem_cut_fst ',' inner
  rcases hcut : cut ',' inner with ⟨low, _ | high⟩
  · rw [hcut] at hjoin hlow
    obtain rfl : low = inner := by simpa using hjoin
    exact ⟨_, .uncut h hopening hclosing hlow⟩
  · rw [hcut] at hjoin hlow
    rw [← hjoin] at h
    rcases hminimum : Version.parse (String.ofList low) with e | minimum
    · exact ⟨_, .badMinimum h hopening hclosing hlow hminimum⟩
    rcases hmaximum : Version.parse (String.ofList high) with e | maximum
    · exact ⟨_, .badMaximum h hopening hclosing hlow hminimum hmaximum⟩
    · exact ⟨_, .interval h hopening hclosing hlow hminimum hmaximum⟩

/-- Every text is read as something. -/
theorem exists_reads (input : String) : ∃ result, Reads input result := by
  rcases hfirst : trim input.toList with _ | ⟨first, rest⟩
  · exact ⟨_, .blank hfirst⟩
  by_cases hopens : ∃ inclusive, Opens first inclusive
  · obtain ⟨inclusive, hopening⟩ := hopens
    obtain ⟨front, last, hlast⟩ : ∃ front last, trim input.toList = front ++ [last] := by
      rw [hfirst]
      exact ⟨_, _, (List.dropLast_append_getLast (List.cons_ne_nil first rest)).symm⟩
    by_cases hcloses : ∃ inclusive', Closes last inclusive'
    · obtain ⟨inclusive', hclosing⟩ := hcloses
      obtain ⟨inner, h⟩ := exists_inner hfirst hlast hopening hclosing
      exact exists_reads_of_brackets h hopening hclosing
    · exact ⟨_, .unclosed hfirst hlast hopening (not_exists.mp hcloses)⟩
  · exact ⟨_, .bare hfirst (not_exists.mp hopens)⟩

/-! ## Meaning -/

/-- The ranks of the versions that a range means. -/
def interval : VersionRange → Set Version.Rank
  | ⟨⟨low, true⟩, none⟩ => Set.Ici low.rank
  | ⟨⟨low, false⟩, none⟩ => Set.Ioi low.rank
  | ⟨⟨low, true⟩, some ⟨high, true⟩⟩ => Set.Icc low.rank high.rank
  | ⟨⟨low, true⟩, some ⟨high, false⟩⟩ => Set.Ico low.rank high.rank
  | ⟨⟨low, false⟩, some ⟨high, true⟩⟩ => Set.Ioc low.rank high.rank
  | ⟨⟨low, false⟩, some ⟨high, false⟩⟩ => Set.Ioo low.rank high.rank

/-- A bound lies below a version by their ranks. -/
theorem isBelow_iff {bound : VersionBound} {v : Version} :
    bound.isBelow v = true ↔
      if bound.inclusive then bound.version.rank ≤ v.rank else bound.version.rank < v.rank := by
  unfold VersionBound.isBelow
  split
  · rw [Ordering.isGE_iff_ne_lt, Version.compare_eq_lt_iff, not_lt]
  · rw [Ordering.isGT_iff_eq_gt, Version.compare_eq_gt_iff]

/-- A bound lies above a version by their ranks. -/
theorem isAbove_iff {bound : VersionBound} {v : Version} :
    bound.isAbove v = true ↔
      if bound.inclusive then v.rank ≤ bound.version.rank else v.rank < bound.version.rank := by
  unfold VersionBound.isAbove
  split
  · rw [Ordering.isLE_iff_ne_gt, Version.compare_eq_gt_iff, not_lt]
  · rw [Ordering.isLT_iff_eq_lt, Version.compare_eq_lt_iff]

/-- A range holds the versions of its interval. -/
theorem contains_iff_mem_interval {range : VersionRange} {v : Version} :
    range.contains v = true ↔ v.rank ∈ range.interval := by
  obtain ⟨⟨low, inclusive⟩, _ | ⟨high, inclusive'⟩⟩ := range
  · rw [contains, Bool.and_eq_true, isBelow_iff]
    rcases inclusive with _ | _ <;> simp [interval]
  · rw [contains, Bool.and_eq_true, isBelow_iff, Option.all_some, isAbove_iff]
    rcases inclusive with _ | _ <;> rcases inclusive' with _ | _ <;> rfl

/-- An interval is empty if its ends are in the wrong order, or the same and not both of them in
it. -/
theorem interval_between_eq_empty {low high : VersionBound}
    (h : high.version.rank < low.version.rank ∨
      low.version = high.version ∧ ¬(low.inclusive = true ∧ high.inclusive = true)) :
    (between low high).interval = ∅ := by
  obtain ⟨low, inclusive⟩ := low
  obtain ⟨high, inclusive'⟩ := high
  rcases h with hlt | ⟨rfl, hopen⟩
  · rcases inclusive with _ | _ <;> rcases inclusive' with _ | _
    · exact Set.Ioo_eq_empty_of_le hlt.le
    · exact Set.Ioc_eq_empty_of_le hlt.le
    · exact Set.Ico_eq_empty_of_le hlt.le
    · exact Set.Icc_eq_empty_of_lt hlt
  · rcases inclusive with _ | _ <;> rcases inclusive' with _ | _
    · exact Set.Ioo_self _
    · exact Set.Ioc_self _
    · exact Set.Ico_self _
    · exact absurd ⟨rfl, rfl⟩ hopen

/-- **Which texts are ranges, and what they mean.**

1. Every text is read as one thing, a range or an error.
2. Where a text has a bracket before and behind, without its blank margin, there is a slice of it
   from the second byte to the last but one, and it is what stands between the brackets.
3. A range holds the versions of its interval, in the order of ranks, which tells versions apart.
4. So it holds none if its ends are in the wrong order, or the same and not both in it. -/
theorem parse_means_interval :
    (∀ (input : String) (result : Except VersionError VersionRange),
        parse input = result ↔ Reads input result) ∧
      (∀ (input : String) (opening closing : Char) (inclusive inclusive' : Bool)
        (rest front : List Char), trim input.toList = opening :: rest →
          trim input.toList = front ++ [closing] → Opens opening inclusive →
            Closes closing inclusive' →
              ∃ inner, trim input.toList = opening :: (inner ++ [closing]) ∧
                slice? (String.ofList (trim input.toList)) 1
                  ((String.ofList (trim input.toList)).utf8ByteSize - 1) =
                    some (String.ofList inner)) ∧
      (∀ (range : VersionRange) (v : Version),
        range.contains v = true ↔ v.rank ∈ range.interval) ∧
      (∀ v w : Version, v.rank = w.rank ↔ v = w) ∧
      ∀ low high : VersionBound, high.version.rank < low.version.rank ∨
          low.version = high.version ∧ ¬(low.inclusive = true ∧ high.inclusive = true) →
        ∀ v, (between low high).contains v = false := by
  refine ⟨fun input result => ⟨?_, parse_of_reads⟩, ?_, fun range v => contains_iff_mem_interval,
    fun v w => Version.rank_inj, ?_⟩
  · rintro rfl
    obtain ⟨result, hresult⟩ := exists_reads input
    rw [parse_of_reads hresult]
    exact hresult
  · intro input opening closing inclusive inclusive' rest front hfirst hlast hopening hclosing
    obtain ⟨inner, h⟩ := exists_inner hfirst hlast hopening hclosing
    refine ⟨inner, h, ?_⟩
    rw [h]
    exact slice?_brackets hopening hclosing inner
  · intro low high h v
    rw [← Bool.not_eq_true, contains_iff_mem_interval, interval_between_eq_empty h]
    exact Set.notMem_empty _

/-- An interval with its ends in the wrong order, whose text has a blank margin and a character of
two bytes: it is read, from a slice that is there, and holds nothing. -/
theorem parse_means_interval_reversed :
    let input := " (2.0.0.é,1.0]\n"
    let range := between ⟨⟨2, 0, 0, "é"⟩, false⟩ ⟨⟨1, 0, 0, ""⟩, true⟩
    parse input = .ok range ∧
      (∃ inner, trim input.toList = '(' :: (inner ++ [']']) ∧
        slice? (String.ofList (trim input.toList)) 1
          ((String.ofList (trim input.toList)).utf8ByteSize - 1) = some (String.ofList inner)) ∧
      ∀ v, range.contains v = false := by
  intro input range
  obtain ⟨-, hslice, -, -, hempty⟩ := parse_means_interval
  have hparse : parse input = .ok range := by decide +kernel
  have hfirst : trim input.toList = '(' :: "2.0.0.é,1.0]".toList := by decide +kernel
  have hlast : trim input.toList = "(2.0.0.é,1.0".toList ++ [']'] := by decide +kernel
  have hreversed : (⟨1, 0, 0, ""⟩ : Version).rank < (⟨2, 0, 0, "é"⟩ : Version).rank :=
    Version.compare_eq_lt_iff.mp (by decide +kernel)
  exact ⟨hparse, hslice input _ _ _ _ _ _ hfirst hlast .round .square,
    hempty _ _ (.inl hreversed)⟩

end RecordQuery.VersionRange
