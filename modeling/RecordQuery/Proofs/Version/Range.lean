import RecordQuery.Proofs.Version.ReadBack
import RecordQuery.Version.Range

/-!
# Reading written ranges back

A range of versions is written without escapes, so that a qualifier can hold anything that also
stands between versions: points, commas, brackets, blanks. The reader takes a blank margin away from
the range and from each version, and cuts an interval at its first comma; nothing else in a
qualifier can mislead it. So a range comes back as it was unless a qualifier ends in a blank
character, or the qualifier of the minimum of an interval holds a comma
(`VersionRange.Unambiguous`).

* `VersionRange.unambiguous_of_parse`: a range that was read is of this kind, whatever its text.
* `VersionRange.parse_text_of_unambiguous`: a range of this kind comes back, if it has a written
  form of its own (`VersionRange.Built`).
* **Main statement** (`VersionRange.parse_text_eq_ok_iff_unambiguous`): both, as one equivalence.
-/

namespace RecordQuery

open RecordQuery.Text

/-! ## Commas in written versions -/

/-- A written version holds a comma only where its qualifier does. -/
theorem Version.comma_not_mem_letters {v : Version} (h : ',' ∉ v.qualifier.toList) :
    ',' ∉ v.letters := by
  have hnumeral : ∀ n, ',' ∉ numeral n := fun n => not_mem_numeral (by decide)
  by_cases hempty : v.qualifier.isEmpty = true
  · rw [letters_of_isEmpty hempty]
    simp [hnumeral]
  · rw [letters_of_not_isEmpty hempty]
    simp [hnumeral, h]

/-- What is blank is taken away and nothing is added, so a qualifier holds a comma only where the
text that it was read from does. -/
theorem Version.comma_not_mem_of_parse {text : List Char} {v : Version} (hcomma : ',' ∉ text)
    (h : parse (String.ofList text) = .ok v) : ',' ∉ v.qualifier.toList := by
  intro hmem
  have htrim := (qualifier_suffix_of_parse h).subset hmem
  rw [String.toList_ofList] at htrim
  exact hcomma (mem_of_mem_trim htrim)

namespace VersionRange

/-! ## Ranges -/

/-- The ranges that can be made: an interval may be open at either end, and what has no maximum
holds its minimum. -/
inductive Built : VersionRange → Prop
  /-- Every version from one on. -/
  | atLeast (minimum : Version) : Built (atLeast minimum)
  /-- The versions between two bounds. -/
  | between (minimum maximum : VersionBound) : Built (between minimum maximum)
  /-- One version. -/
  | exactly (version : Version) : Built (exactly version)
  /-- What a text is read as. -/
  | parse {input : String} {range : VersionRange} (h : parse input = .ok range) : Built range

/-- The ranges whose written form can be taken in one way only. -/
structure Unambiguous (range : VersionRange) : Prop where
  /-- The minimum does not end in a blank character. -/
  minimum : endsBlank range.minimum.version.qualifier.toList = false
  /-- Neither does the maximum. -/
  maximum : ∀ bound ∈ range.maximum, endsBlank bound.version.qualifier.toList = false
  /-- The first comma of an interval stands behind its minimum. -/
  comma : range.maximum.isSome → ',' ∉ range.minimum.version.qualifier.toList

/-! ## Ranges that were read -/

/-- An interval that was read has two bounds, read from before and after its first comma. -/
theorem exists_of_parseInterval {input : String} {includeMinimum : Bool} {body : List Char}
    {range : VersionRange} (h : parseInterval input includeMinimum body = .ok range) :
    ∃ low high minimum maximum, ',' ∉ low ∧
      Version.parse (String.ofList low) = .ok minimum.version ∧
      Version.parse (String.ofList high) = .ok maximum.version ∧
      range = between minimum maximum := by
  unfold parseInterval at h
  split at h
  · rename_i includeMaximum low high _ hcut
    obtain ⟨minimum, hminimum, h⟩ := exists_of_bind_eq_ok h
    obtain ⟨maximum, hmaximum, h⟩ := exists_of_bind_eq_ok h
    cases h
    have hlow : ',' ∉ (Text.cut ',' body.dropLast).1 := not_mem_cut_fst _ _
    have hfst : (Text.cut ',' body.dropLast).1 = low := congrArg Prod.fst hcut
    exact ⟨low, high, ⟨minimum, includeMinimum⟩, ⟨maximum, includeMaximum⟩, hfst ▸ hlow, hminimum,
      hmaximum, rfl⟩
  · cases h

/-- A range that was read is an interval, or all versions from one on. -/
theorem parse_eq_ok_cases {input : String} {range : VersionRange} (h : parse input = .ok range) :
    (∃ includeMinimum body, parseInterval input includeMinimum body = .ok range) ∨
      ∃ text minimum, Version.parse text = .ok minimum ∧ range = atLeast minimum := by
  unfold parse at h
  split at h
  · cases h
  · exact .inl ⟨_, _, h⟩
  · exact .inl ⟨_, _, h⟩
  · rename_i text _ _ _
    rw [map_eq_pure_bind] at h
    obtain ⟨minimum, hminimum, h⟩ := exists_of_bind_eq_ok h
    cases h
    exact .inr ⟨_, minimum, hminimum, rfl⟩

/-- **A range that was read is unambiguous**, whatever brackets, points and commas its text has. -/
theorem unambiguous_of_parse {input : String} {range : VersionRange}
    (h : parse input = .ok range) : range.Unambiguous := by
  obtain ⟨includeMinimum, body, hinterval⟩ | ⟨text, minimum, hminimum, rfl⟩ := parse_eq_ok_cases h
  · obtain ⟨low, high, minimum, maximum, hlow, hminimum, hmaximum, rfl⟩ :=
      exists_of_parseInterval hinterval
    refine ⟨Version.endsBlank_of_parse hminimum, ?_, fun _ =>
      Version.comma_not_mem_of_parse hlow hminimum⟩
    intro bound hbound
    obtain rfl : maximum = bound := Option.some.inj hbound
    exact Version.endsBlank_of_parse hmaximum
  · refine ⟨Version.endsBlank_of_parse hminimum, ?_, ?_⟩
    · rintro _ ⟨⟩
    · rintro ⟨⟩

/-- What can be made without a maximum holds its minimum. -/
theorem Built.eq_atLeast {range : VersionRange} (h : range.Built) (hnone : range.maximum = none) :
    range = .atLeast range.minimum.version := by
  cases h with
  | atLeast => rfl
  | between | exactly => cases hnone
  | parse h =>
      obtain ⟨_, _, hinterval⟩ | ⟨_, _, _, rfl⟩ := parse_eq_ok_cases h
      · obtain ⟨_, _, _, _, _, _, _, rfl⟩ := exists_of_parseInterval hinterval
        cases hnone
      · rfl

/-! ## Brackets -/

/-- The brackets before an interval, each with whether it takes the minimum in. -/
inductive Opens : Char → Bool → Prop
  /-- A square bracket takes it in. -/
  | square : Opens '[' true
  /-- A round one leaves it out. -/
  | round : Opens '(' false

/-- The brackets behind an interval, each with whether it takes the maximum in. -/
inductive Closes : Char → Bool → Prop
  /-- A square bracket takes it in. -/
  | square : Closes ']' true
  /-- A round one leaves it out. -/
  | round : Closes ')' false

/-- The reader takes for a closing bracket what is one. -/
theorem closingBracket?_eq_some_iff {c : Char} {inclusive : Bool} :
    closingBracket? c = some inclusive ↔ Closes c inclusive := by
  constructor
  · intro h
    unfold closingBracket? at h
    split at h
    · obtain rfl := Option.some.inj h
      exact .square
    · obtain rfl := Option.some.inj h
      exact .round
    · cases h
  · rintro (_ | _) <;> rfl

/-- No character is a bracket on both sides. -/
theorem Opens.not_closes {c : Char} {inclusive inclusive' : Bool} (h : Opens c inclusive) :
    ¬Closes c inclusive' := by
  cases h <;> rintro ⟨⟩

/-- No bracket is blank. -/
theorem Opens.isBlank {c : Char} {inclusive : Bool} (h : Opens c inclusive) :
    isBlank c = false := by
  cases h <;> decide

/-- No closing bracket is blank either. -/
theorem Closes.isBlank {c : Char} {inclusive : Bool} (h : Closes c inclusive) :
    isBlank c = false := by
  cases h <;> decide

/-- A bound is written with the brackets that say whether it is in the range. -/
theorem opens_opening (bound : VersionBound) : Opens bound.opening bound.inclusive := by
  unfold VersionBound.opening
  rcases bound.inclusive with _ | _
  · exact .round
  · exact .square

/-- So it is with the bracket that closes the range. -/
theorem closes_closing (bound : VersionBound) : Closes bound.closing bound.inclusive := by
  unfold VersionBound.closing
  rcases bound.inclusive with _ | _
  · exact .round
  · exact .square

/-! ## Reading by brackets -/

section Parse

variable {input : String} {opening closing : Char} {inclusive inclusive' : Bool}

/-- What begins with a bracket is read as an interval. -/
theorem parse_of_opens {body : List Char} (h : trim input.toList = opening :: body)
    (hopening : Opens opening inclusive) :
    parse input = parseInterval input inclusive body := by
  unfold parse
  rw [h]
  cases hopening <;> rfl

/-- What begins with none is read as a minimum. -/
theorem parse_of_not_opens {first : Char} {rest : List Char}
    (h : trim input.toList = first :: rest) (hfirst : ∀ inclusive, ¬Opens first inclusive) :
    parse input = atLeast <$> Version.parse (String.ofList (first :: rest)) := by
  unfold parse
  rw [h]
  split
  · rename_i hnil
    cases hnil
  · rename_i hcons
    obtain rfl := (List.cons.inj hcons).1
    exact absurd .square (hfirst true)
  · rename_i hcons
    obtain rfl := (List.cons.inj hcons).1
    exact absurd .round (hfirst false)
  · rfl

/-- What ends in a bracket is cut at its first comma. -/
theorem parseInterval_concat (hclosing : Closes closing inclusive') (inner : List Char) :
    parseInterval input inclusive (inner ++ [closing]) =
      match cut ',' inner with
      | (low, some high) => do
        let minimum ← Version.parse (String.ofList low)
        let maximum ← Version.parse (String.ofList high)
        return between ⟨minimum, inclusive⟩ ⟨maximum, inclusive'⟩
      | _ => .error (.invalidRange input) := by
  have hlast : (inner ++ [closing]).getLast? >>= closingBracket? = some inclusive' := by
    rw [List.getLast?_concat]
    exact closingBracket?_eq_some_iff.mpr hclosing
  unfold parseInterval
  rw [hlast, List.dropLast_concat, parseInterval.cut]
  rcases cut ',' inner with ⟨low, _ | high⟩ <;> rfl

/-- An interval with a comma is read from before and after the first. -/
theorem parse_of_comma {low high : List Char}
    (h : trim input.toList = opening :: (low ++ ',' :: high ++ [closing]))
    (hopening : Opens opening inclusive) (hclosing : Closes closing inclusive')
    (hcomma : ',' ∉ low) :
    parse input = (do
      let minimum ← Version.parse (String.ofList low)
      let maximum ← Version.parse (String.ofList high)
      return between ⟨minimum, inclusive⟩ ⟨maximum, inclusive'⟩) := by
  rw [parse_of_opens h hopening, parseInterval_concat hclosing, cut_append hcomma]

end Parse

/-! ## Written ranges -/

/-- A text that begins as a version does is read as a minimum. -/
theorem parse_of_letters {input : String} {v : Version} (h : trim input.toList = v.letters) :
    parse input = atLeast <$> Version.parse v.text := by
  rcases hletters : v.letters with _ | ⟨first, rest⟩
  · exact absurd hletters v.letters_ne_nil
  · rw [hletters] at h
    have hfirst : ∀ inclusive, ¬Opens first inclusive := by
      rintro _ (_ | _)
      · exact Version.letters_ne_cons (by decide) rest hletters
      · exact Version.letters_ne_cons (by decide) rest hletters
    rw [parse_of_not_opens h hfirst, ← hletters]
    rfl

/-- A written interval is read as its two versions are. -/
theorem parse_text_between {minimum maximum : VersionBound}
    (hcomma : ',' ∉ minimum.version.qualifier.toList) :
    parse (between minimum maximum).text = (do
      let low ← Version.parse minimum.version.text
      let high ← Version.parse maximum.version.text
      return between ⟨low, minimum.inclusive⟩ ⟨high, maximum.inclusive⟩) := by
  have htrim : trim (between minimum maximum).text.toList = minimum.opening ::
      (minimum.version.letters ++ ',' :: maximum.version.letters ++ [maximum.closing]) := by
    rw [text, String.toList_ofList, List.append_assoc]
    apply trim_eq_self
    · exact (opens_opening minimum).isBlank
    · show endsBlank ((minimum.opening :: minimum.version.letters) ++
        ',' :: (maximum.version.letters ++ [maximum.closing])) = false
      rw [endsBlank_append_cons (by simp), endsBlank_append (by simp)]
      exact (closes_closing maximum).isBlank
  exact parse_of_comma htrim (opens_opening minimum) (closes_closing maximum)
    (Version.comma_not_mem_letters hcomma)

/-- **An unambiguous range is read back.** -/
theorem parse_text_of_unambiguous {range : VersionRange} (hbuilt : range.Built)
    (h : range.Unambiguous) : parse range.text = .ok range := by
  have hminimum := Version.parse_text h.minimum
  rcases hmaximum : range.maximum with _ | maximum
  · have hrange := hbuilt.eq_atLeast hmaximum
    have htrim : trim range.text.toList = range.minimum.version.letters := by
      rw [hrange, text, String.toList_ofList]
      apply trim_eq_self
      · exact Version.startsBlank_letters _
      · exact (Version.endsBlank_letters _).trans h.minimum
    rw [parse_of_letters htrim, hminimum, hrange]
    rfl
  · have hrange : range = between range.minimum maximum := by
      rw [between, ← hmaximum]
    have hcomma := h.comma (by rw [hmaximum]; rfl)
    have hhigh := Version.parse_text (h.maximum maximum hmaximum)
    rw [hrange, parse_text_between hcomma, hminimum, hhigh]
    rfl

/-- **A range comes back exactly if its written form is unambiguous.** Whatever way a range was
made, with any numbers and any qualifiers: its written form is read as the range itself if no
qualifier ends in a blank character and, for an interval, the qualifier of the minimum holds no
comma; in all other cases it is not. What was read from a text is unambiguous, so that nothing is
lost by writing it. -/
theorem parse_text_eq_ok_iff_unambiguous :
    (∀ range : VersionRange, range.Built → (parse range.text = .ok range ↔ range.Unambiguous)) ∧
      ∀ (input : String) (range : VersionRange), parse input = .ok range →
        range.Unambiguous ∧ parse range.text = .ok range := by
  refine ⟨fun range hbuilt => ?_, fun input range h => ?_⟩
  · exact ⟨unambiguous_of_parse, parse_text_of_unambiguous hbuilt⟩
  · have hunambiguous := unambiguous_of_parse h
    exact ⟨hunambiguous, parse_text_of_unambiguous (.parse h) hunambiguous⟩

/-- An interval whose qualifiers hold brackets and points, and that of the maximum a comma too, is
read from a text with blanks, and comes back. With the bounds exchanged it does not: the comma now
stands in the minimum. -/
theorem parse_text_eq_ok_iff_unambiguous_brackets :
    let low : VersionBound := ⟨⟨1, 0, 0, "a].(b"⟩, true⟩
    let high : VersionBound := ⟨⟨2, 0, 0, "c,d)"⟩, true⟩
    parse " [1.0.0.a].(b , 2.0.0.c,d)] " = .ok (between low high) ∧
      parse (between low high).text = .ok (between low high) ∧
      (between high low).Built ∧ parse (between high low).text ≠ .ok (between high low) := by
  intro low high
  obtain ⟨hiff, hread⟩ := parse_text_eq_ok_iff_unambiguous
  have hparse : parse " [1.0.0.a].(b , 2.0.0.c,d)] " = .ok (between low high) := by decide +kernel
  have hbuilt : (between high low).Built := .between high low
  refine ⟨hparse, (hread _ _ hparse).2, hbuilt, fun h => ?_⟩
  have hcomma := ((hiff _ hbuilt).mp h).comma rfl
  exact absurd (by decide) hcomma

end VersionRange

end RecordQuery
