import Mathlib.Data.List.Forall2
import Mathlib.Data.List.GetD
import RecordQuery.Proofs.Version.ReadBack

/-!
# Which texts are versions

The reader of versions works from left to right and has a point, a number or the end of the text
before it at each step. This is what it reads, said of the text as a whole: without its blank margin
the text is cut at its first three points (`Text.IsCut`), each of the first three parts that are
there has to be a numeral (`Version.IsNumeral`), and what is behind the third point is the
qualifier, whatever it holds.

**Main statement** (`Version.parse_eq_iff_reads`): `Version.Reads` tells the outcome for every text,
a version or an error. A numeral stands for its decimal value, so that no number wraps around.
-/

namespace RecordQuery

/-! ## Cuts at the first separators -/

namespace Text

/-- The parts of a text that is cut at its first `count` separators, or at all of them if it has
fewer. -/
structure IsCut (sep : Char) (count : Nat) (text : List Char) (parts : List (List Char)) : Prop where
  /-- The parts, with a separator between each and the next, make up the text. -/
  join : List.intercalate [sep] parts = text
  /-- There is one part at least. -/
  ne_nil : parts ≠ []
  /-- There are no more cuts than wanted. -/
  length_le : parts.length ≤ count + 1
  /-- Only the part behind the last cut may hold a separator. -/
  not_mem : ∀ part ∈ parts.take count, sep ∉ part

/-- Joining one part more puts a separator behind it. -/
theorem intercalate_cons {sep : Char} {rest : List (List Char)} (h : rest ≠ [])
    (first : List Char) :
    List.intercalate [sep] (first :: rest) = first ++ sep :: List.intercalate [sep] rest := by
  obtain ⟨next, later, rfl⟩ := List.exists_cons_of_ne_nil h
  simp [List.intercalate, List.intersperse]

/-- Every text can be cut at its first separators. -/
theorem exists_isCut (sep : Char) (count : Nat) (text : List Char) :
    ∃ parts, IsCut sep count text parts := by
  induction count generalizing text with
  | zero => exact ⟨[text], by simp [List.intercalate], by simp, by simp, by simp⟩
  | succ count ih =>
      have hjoin := join_cut sep text
      have hfirst := not_mem_cut_fst sep text
      rcases hrest : (cut sep text).2 with _ | rest
      · rw [hrest] at hjoin
        refine ⟨[text], by simp [List.intercalate], by simp, by simp, ?_⟩
        have hwhole : (cut sep text).1 = text := by simpa using hjoin
        simpa [hwhole] using hfirst
      · rw [hrest] at hjoin
        obtain ⟨parts, hparts⟩ := ih rest
        refine ⟨(cut sep text).1 :: parts, ?_, by simp, by simpa using hparts.length_le, ?_⟩
        · rw [intercalate_cons hparts.ne_nil, hparts.join]
          exact hjoin
        · simpa [hfirst] using hparts.not_mem

end Text

namespace Version

open RecordQuery.Text

/-! ## Numerals -/

/-- A part that stands for a number: one or more digits, behind one plus sign or none, whose decimal
value is that number. -/
def IsNumeral (part : List Char) (n : UInt32) : Prop :=
  ∃ digits, (part = digits ∨ part = '+' :: digits) ∧ digits ≠ [] ∧
    (∀ c ∈ digits, c.isDigit = true) ∧ Nat.ofDigitChars 10 digits 0 = n.toNat

/-- A part is its digits, or those behind a plus sign. -/
theorem eq_or_eq_cons_unsigned (part : List Char) :
    part = unsigned part ∨ part = '+' :: unsigned part := by
  unfold unsigned
  split
  · exact .inr rfl
  · exact .inl rfl

/-- Digits have no sign. -/
theorem unsigned_of_isDigit {digits : List Char} (h : ∀ c ∈ digits, c.isDigit = true) :
    unsigned digits = digits := by
  unfold unsigned
  split
  · exact absurd (h '+' List.mem_cons_self) (by decide)
  · rfl

/-- The reader takes the numerals, and each for its value. -/
theorem number?_eq_some_iff {part : List Char} {n : UInt32} :
    number? part = some n ↔ IsNumeral part n := by
  constructor
  · intro h
    simp only [number?, Option.ite_none_right_eq_some, Option.some.injEq] at h
    obtain ⟨⟨hne, hdigits, hlt⟩, rfl⟩ := h
    exact ⟨unsigned part, eq_or_eq_cons_unsigned part, hne, List.all_eq_true.mp hdigits,
      (UInt32.toNat_ofNat_of_lt' hlt).symm⟩
  · rintro ⟨digits, hpart, hne, hdigits, hvalue⟩
    have hunsigned : unsigned part = digits := by
      rcases hpart with rfl | rfl
      · exact unsigned_of_isDigit hdigits
      · rfl
    unfold number?
    dsimp only
    rw [hunsigned, hvalue, UInt32.ofNat_toNat]
    exact if_pos ⟨hne, List.all_eq_true.mpr hdigits, n.toNat_lt_size⟩

/-- A part cannot be read as a number exactly if it is no numeral. -/
theorem number?_eq_none_iff {part : List Char} :
    number? part = none ↔ ¬∃ n, IsNumeral part n := by
  rw [Option.eq_none_iff_forall_ne_some, not_exists]
  exact forall_congr' fun n => not_congr number?_eq_some_iff

/-! ## Reading part by part -/

/-- What is left of a text of which these parts are left. -/
def joined : List (List Char) → Option (List Char)
  | [] => none
  | first :: rest => some (List.intercalate ['.'] (first :: rest))

/-- The first cut of joined parts separates the first of them from the others. -/
theorem cut_joined {first : List Char} (h : '.' ∉ first) (rest : List (List Char)) :
    cut '.' (List.intercalate ['.'] (first :: rest)) = (first, joined rest) := by
  rcases rest with _ | ⟨next, later⟩
  · simpa [List.intercalate, joined] using cut_of_not_mem h
  · rw [intercalate_cons (List.cons_ne_nil next later), cut_append h]
    rfl

/-- A numeral holds no separator. -/
theorem dot_not_mem_of_isNumeral {part : List Char} {n : UInt32} (h : IsNumeral part n) :
    '.' ∉ part := by
  obtain ⟨digits, hpart, -, hdigits, -⟩ := h
  have hdot : '.' ∉ digits := fun hmem => absurd (hdigits '.' hmem) (by decide)
  rcases hpart with rfl | rfl
  · exact hdot
  · simp [hdot]

/-- A part that is a numeral is read as its value. -/
theorem readNumber_joined {first : List Char} {n : UInt32} (h : IsNumeral first n)
    (input : String) (rest : List (List Char)) :
    readNumber input (joined (first :: rest)) = .ok (n, joined rest) := by
  rw [joined, readNumber, cut_joined (dot_not_mem_of_isNumeral h), number?_eq_some_iff.mpr h]

/-- A part that is none ends the reading. -/
theorem readNumber_joined_of_not {first : List Char} (hdot : '.' ∉ first)
    (h : ¬∃ n, IsNumeral first n) (input : String) (rest : List (List Char)) :
    readNumber input (joined (first :: rest)) =
      .error (.invalidSegment input (String.ofList first)) := by
  rw [joined, readNumber, cut_joined hdot, number?_eq_none_iff.mpr h]

/-- Where the next parts are numerals, the first is read and the others are left; where no part is
left the number is zero. -/
theorem readNumber_joined_of_forall₂ {parts : List (List Char)} {numbers : List UInt32}
    {count : Nat} (h : List.Forall₂ IsNumeral (parts.take (count + 1)) numbers) (input : String) :
    readNumber input (joined parts) = .ok (numbers.headD 0, joined parts.tail) ∧
      List.Forall₂ IsNumeral (parts.tail.take count) numbers.tail := by
  rcases parts with _ | ⟨first, rest⟩
  · rw [List.take_nil, List.forall₂_nil_left_iff] at h
    subst h
    exact ⟨rfl, by simp⟩
  · obtain ⟨n, later, hfirst, hlater, rfl⟩ := List.forall₂_cons_left_iff.mp h
    exact ⟨readNumber_joined hfirst input rest, hlater⟩

/-- What the reader does with a text that is not blank, from its parts. -/
theorem parse_of_isCut {input : String} {parts : List (List Char)}
    (hblank : trim input.toList ≠ []) (hparts : IsCut '.' 3 (trim input.toList) parts) :
    parse input = (do
      let (major, rest) ← readNumber input (joined parts)
      let (minor, rest) ← readNumber input rest
      let (micro, rest) ← readNumber input rest
      return ⟨major, minor, micro, String.ofList (rest.getD [])⟩) := by
  obtain ⟨first, rest, rfl⟩ := List.exists_cons_of_ne_nil hparts.ne_nil
  rw [parse_of_trim_ne_nil hblank, joined, hparts.join]

/-! ## The outcome for a text -/

/-- What a text is read as: nothing for a blank one, and otherwise the version that its parts stand
for, numbers that are left out being zero, or an error that names the first part that should be a
numeral and is none. -/
inductive Reads (input : String) : Except VersionError Version → Prop
  /-- A blank text. -/
  | blank (h : trim input.toList = []) : Reads input (.error .empty)
  /-- A text whose first three parts are numerals. -/
  | version {parts : List (List Char)} {numbers : List UInt32} (hblank : trim input.toList ≠ [])
      (hparts : IsCut '.' 3 (trim input.toList) parts)
      (hnumbers : List.Forall₂ IsNumeral (parts.take 3) numbers) :
      Reads input (.ok ⟨numbers.getD 0 0, numbers.getD 1 0, numbers.getD 2 0,
        String.ofList (parts.getD 3 [])⟩)
  /-- A text with another part among the first three. -/
  | invalid {parts before after : List (List Char)} {part : List Char}
      (hblank : trim input.toList ≠ []) (hparts : IsCut '.' 3 (trim input.toList) parts)
      (htake : parts.take 3 = before ++ part :: after)
      (hbefore : ∀ earlier ∈ before, ∃ n, IsNumeral earlier n) (hpart : ¬∃ n, IsNumeral part n) :
      Reads input (.error (.invalidSegment input (String.ofList part)))

/-- Either all parts are numerals, or there is a first that is none. -/
theorem exists_numbers_or_exists_first (parts : List (List Char)) :
    (∃ numbers, List.Forall₂ IsNumeral parts numbers) ∨
      ∃ before part after, parts = before ++ part :: after ∧
        (∀ earlier ∈ before, ∃ n, IsNumeral earlier n) ∧ ¬∃ n, IsNumeral part n := by
  induction parts with
  | nil => exact .inl ⟨[], .nil⟩
  | cons first rest ih =>
      by_cases hfirst : ∃ n, IsNumeral first n
      · obtain ⟨numbers, hnumbers⟩ | ⟨before, part, after, rfl, hbefore, hpart⟩ := ih
        · obtain ⟨n, hn⟩ := hfirst
          exact .inl ⟨n :: numbers, .cons hn hnumbers⟩
        · exact .inr ⟨first :: before, part, after, rfl,
            List.forall_mem_cons.mpr ⟨hfirst, hbefore⟩, hpart⟩
      · exact .inr ⟨[], first, rest, rfl, by simp, hfirst⟩

/-- Every text is read as something. -/
theorem exists_reads (input : String) : ∃ result, Reads input result := by
  by_cases hblank : trim input.toList = []
  · exact ⟨_, .blank hblank⟩
  · obtain ⟨parts, hparts⟩ := exists_isCut '.' 3 (trim input.toList)
    obtain ⟨numbers, hnumbers⟩ | ⟨before, part, after, htake, hbefore, hpart⟩ :=
      exists_numbers_or_exists_first (parts.take 3)
    · exact ⟨_, .version hblank hparts hnumbers⟩
    · exact ⟨_, .invalid hblank hparts htake hbefore hpart⟩

/-- The part behind all cuts is what is left after the others. -/
theorem getD_joined_drop {parts : List (List Char)} {count : Nat}
    (h : parts.length ≤ count + 1) : (joined (parts.drop count)).getD [] = parts.getD count [] := by
  rcases hdrop : parts.drop count with _ | ⟨last, _ | ⟨next, later⟩⟩
  · have hlength : parts.length ≤ count := List.drop_eq_nil_iff.mp hdrop
    rw [List.getD_eq_default _ _ hlength]
    rfl
  · have hlast : parts[count]? = some last := by
      rw [← List.head?_drop, hdrop]
      rfl
    rw [List.getD_eq_getElem?_getD, hlast]
    simp [joined, List.intercalate]
  · have hlength := congrArg List.length hdrop
    rw [List.length_drop, List.length_cons, List.length_cons] at hlength
    omega

/-- A text whose first three parts are numerals is read as their numbers and what is left. -/
theorem parse_of_numerals {input : String} {parts : List (List Char)} {numbers : List UInt32}
    (hblank : trim input.toList ≠ []) (hparts : IsCut '.' 3 (trim input.toList) parts)
    (hnumbers : List.Forall₂ IsNumeral (parts.take 3) numbers) :
    parse input = .ok ⟨numbers.getD 0 0, numbers.getD 1 0, numbers.getD 2 0,
      String.ofList (parts.getD 3 [])⟩ := by
  obtain ⟨hmajor, hnumbers'⟩ := readNumber_joined_of_forall₂ hnumbers input
  obtain ⟨hminor, hnumbers'⟩ := readNumber_joined_of_forall₂ hnumbers' input
  obtain ⟨hmicro, -⟩ := readNumber_joined_of_forall₂ hnumbers' input
  have hrest : parts.tail.tail.tail = parts.drop 3 := by
    simp only [← List.drop_one, List.drop_drop]
  rw [parse_of_isCut hblank hparts]
  simp only [hmajor, hminor, hmicro, bind, Except.bind]
  rw [hrest, getD_joined_drop hparts.length_le]
  rcases numbers with _ | ⟨_, _ | ⟨_, _ | ⟨_, _⟩⟩⟩ <;> rfl

/-- A text is refused with the first of its first three parts that is no numeral. -/
theorem parse_of_not_numeral {input : String} {parts before after : List (List Char)}
    {part : List Char} (hblank : trim input.toList ≠ [])
    (hparts : IsCut '.' 3 (trim input.toList) parts)
    (htake : parts.take 3 = before ++ part :: after)
    (hbefore : ∀ earlier ∈ before, ∃ n, IsNumeral earlier n) (hpart : ¬∃ n, IsNumeral part n) :
    parse input = .error (.invalidSegment input (String.ofList part)) := by
  have hdot : '.' ∉ part := hparts.not_mem part (by rw [htake]; simp)
  have hsplit : parts = before ++ part :: (after ++ parts.drop 3) := by
    rw [← List.cons_append, ← List.append_assoc, ← htake, List.take_append_drop]
  have hfails := readNumber_joined_of_not hdot hpart input (after ++ parts.drop 3)
  rw [parse_of_isCut hblank hparts, hsplit]
  rcases before with _ | ⟨first, _ | ⟨second, _ | ⟨third, before⟩⟩⟩
  · rw [List.nil_append, hfails]
    rfl
  · obtain ⟨n, hn⟩ := hbefore first (by simp)
    simp only [List.cons_append, List.nil_append, readNumber_joined hn, hfails, bind, Except.bind]
  · obtain ⟨n, hn⟩ := hbefore first (by simp)
    obtain ⟨m, hm⟩ := hbefore second (by simp)
    simp only [List.cons_append, List.nil_append, readNumber_joined hn, readNumber_joined hm, hfails,
      bind, Except.bind]
  · -- There are no more than three numbers, so no three stand before this part.
    have hlength := congrArg List.length htake
    simp only [List.length_take, List.length_append, List.length_cons] at hlength
    omega

/-- **Which texts are versions, and which versions they are.** For every text, the reader's result
is the one that the text is read as: none other, and there is always one. Without its blank margin
the text is empty, or is cut at its first three points; if each of the first three parts that are
there is a plus sign or nothing before one or more digits, of a value below `2 ^ 32`, the version
has those values, zeros for those that are not there, and the fourth part as its qualifier; and if
one of them is not, the error holds the whole text, margin included, and the first such part. -/
theorem parse_eq_iff_reads (input : String) (result : Except VersionError Version) :
    parse input = result ↔ Reads input result := by
  have hsound : ∀ {result}, Reads input result → parse input = result := by
    intro result h
    cases h with
    | blank h =>
        unfold parse
        rw [h]
    | version hblank hparts hnumbers => exact parse_of_numerals hblank hparts hnumbers
    | invalid hblank hparts htake hbefore hpart =>
        exact parse_of_not_numeral hblank hparts htake hbefore hpart
  constructor
  · rintro rfl
    obtain ⟨result, hresult⟩ := exists_reads input
    rw [hsound hresult]
    exact hresult
  · exact hsound

end Version

end RecordQuery
