import RecordQuery.Text.Glob

/-!
# Star patterns mean what they say

`Text.Fits` is the meaning of a star pattern: a text fits if it is the pattern with every star
replaced by some run of characters. Matching instead cuts the pattern at its stars and takes each
piece where it occurs first.

**Main statement** (`Text.globMatches_iff`): the two agree on every pattern and every text. The
first occurrence of a piece leaves the longest rest, and what fits a rest still fits when more
characters stand before it, which the star in front takes up (`Text.Filled.append_left`).
-/

namespace RecordQuery.Text

/-! ## The meaning of a pattern -/

/-- The texts that a star pattern stands for. -/
inductive Fits : List Char → List Char → Prop
  /-- The empty pattern stands for the empty text. -/
  | nil : Fits [] []
  /-- A character other than the star stands for itself. -/
  | char {c : Char} {pattern text : List Char} (hc : c ≠ '*') (h : Fits pattern text) :
      Fits (c :: pattern) (c :: text)
  /-- A star stands for any run of characters. -/
  | star (gap : List Char) {pattern text : List Char} (h : Fits pattern text) :
      Fits ('*' :: pattern) (gap ++ text)

/-- The texts that hold the pieces in order, each behind a gap, and end with the last of them. -/
def Filled : List (List Char) → List Char → Prop
  | [], text => text = []
  | piece :: later, text => ∃ gap rest, text = gap ++ (piece ++ rest) ∧ Filled later rest

/-- The gap in front takes up what is put before a text. -/
theorem Filled.append_left {piece : List Char} {later : List (List Char)} {text : List Char}
    (h : Filled (piece :: later) text) (front : List Char) :
    Filled (piece :: later) (front ++ text) := by
  obtain ⟨gap, rest, rfl, hrest⟩ := h
  refine ⟨front ++ gap, rest, ?_, hrest⟩
  rw [List.append_assoc]

/-! ## Patterns in pieces -/

/-- A text fits a pattern when it begins with the first piece and holds the others behind gaps. -/
theorem fits_iff_filled {pattern text : List Char} :
    Fits pattern text ↔
      ∃ rest, text = (pieces '*' pattern).1 ++ rest ∧ Filled (pieces '*' pattern).2 rest := by
  induction pattern generalizing text with
  | nil =>
      constructor
      · rintro ⟨⟩
        exact ⟨[], rfl, rfl⟩
      · rintro ⟨rest, rfl, rfl⟩
        exact .nil
  | cons c pattern ih =>
      by_cases hc : c = '*'
      · subst hc
        have hpieces : pieces '*' ('*' :: pattern) =
            ([], (pieces '*' pattern).1 :: (pieces '*' pattern).2) := rfl
        rw [hpieces]
        constructor
        · intro h
          cases h with
          | char hc h => exact absurd rfl hc
          | star gap h =>
              obtain ⟨rest, rfl, hrest⟩ := ih.mp h
              exact ⟨_, rfl, gap, rest, rfl, hrest⟩
        · rintro ⟨_, rfl, gap, rest, rfl, hrest⟩
          exact .star gap (ih.mpr ⟨rest, rfl, hrest⟩)
      · have hpieces : pieces '*' (c :: pattern) =
            (c :: (pieces '*' pattern).1, (pieces '*' pattern).2) := by
          simp [pieces, hc]
        rw [hpieces]
        constructor
        · intro h
          cases h with
          | char _ h =>
              obtain ⟨rest, rfl, hrest⟩ := ih.mp h
              exact ⟨rest, rfl, hrest⟩
          | star gap h => exact absurd rfl hc
        · rintro ⟨rest, rfl, hrest⟩
          exact .char hc (ih.mpr ⟨rest, rfl, hrest⟩)

/-! ## First occurrences -/

/-- What follows the first occurrence of a piece, and that it occurs there. -/
theorem exists_gap_of_afterFirst {piece text rest : List Char}
    (h : afterFirst piece text = some rest) : ∃ gap, text = gap ++ (piece ++ rest) := by
  induction text with
  | nil =>
      unfold afterFirst at h
      split at h
      · rename_i hpiece
        obtain rfl := Option.some.inj h
        exact ⟨[], by rw [hpiece]; rfl⟩
      · cases h
  | cons c text ih =>
      unfold afterFirst at h
      split at h
      · rename_i hpre
        obtain ⟨rest', hrest'⟩ := List.isPrefixOf_iff_prefix.mp hpre
        rw [← hrest', List.drop_left] at h
        obtain rfl := Option.some.inj h
        exact ⟨[], hrest'.symm⟩
      · obtain ⟨gap, hgap⟩ := ih h
        exact ⟨c :: gap, by rw [hgap]; rfl⟩

/-- Where a piece occurs, its first occurrence leaves at least as much behind it. -/
theorem afterFirst_append (piece gap rest : List Char) :
    ∃ front, afterFirst piece (gap ++ (piece ++ rest)) = some (front ++ rest) := by
  induction gap with
  | nil =>
      rcases h : piece ++ rest with _ | ⟨c, text⟩
      · obtain ⟨rfl, rfl⟩ := List.append_eq_nil_iff.mp h
        exact ⟨[], rfl⟩
      · have hpre : piece.isPrefixOf (c :: text) = true :=
          List.isPrefixOf_iff_prefix.mpr ⟨rest, h⟩
        have hdrop : (c :: text).drop piece.length = rest := by
          rw [← h, List.drop_left]
        refine ⟨[], ?_⟩
        rw [List.nil_append, List.nil_append, afterFirst, if_pos hpre, hdrop]
  | cons c gap ih =>
      rw [List.cons_append, afterFirst]
      split
      · -- The piece occurs earlier, so more than `rest` is left.
        have htext : c :: (gap ++ (piece ++ rest)) = (c :: (gap ++ piece)) ++ rest := by simp
        have hle : piece.length ≤ (c :: (gap ++ piece)).length := by simp; omega
        refine ⟨(c :: (gap ++ piece)).drop piece.length, ?_⟩
        rw [htext, List.drop_append_of_le_length hle]
      · exact ih

/-! ## Matching -/

/-- The search for the last pieces succeeds exactly if the text can be filled with them. -/
theorem endsWithPieces_iff {piece : List Char} {later : List (List Char)} {text : List Char} :
    endsWithPieces piece later text = true ↔ Filled (piece :: later) text := by
  induction later generalizing piece text with
  | nil =>
      rw [endsWithPieces, List.isSuffixOf_iff_suffix]
      constructor
      · rintro ⟨gap, rfl⟩
        exact ⟨gap, [], by rw [List.append_nil], rfl⟩
      · rintro ⟨gap, _, rfl, rfl⟩
        exact ⟨gap, by rw [List.append_nil]⟩
  | cons next later ih =>
      unfold endsWithPieces
      constructor
      · intro h
        split at h
        · rename_i rest hfirst
          obtain ⟨gap, rfl⟩ := exists_gap_of_afterFirst hfirst
          exact ⟨gap, rest, rfl, ih.mp h⟩
        · cases h
      · rintro ⟨gap, rest, rfl, hrest⟩
        obtain ⟨front, hfront⟩ := afterFirst_append piece gap rest
        rw [hfront]
        exact ih.mpr (hrest.append_left front)

/-- **A text matches a pattern exactly if it fits it**: if it is the pattern with each star replaced
by some run of characters, every other character standing for itself. -/
theorem globMatches_iff {pattern text : List Char} :
    globMatches pattern text = true ↔ Fits pattern text := by
  rw [fits_iff_filled]
  unfold globMatches
  rcases pieces '*' pattern with ⟨first, _ | ⟨next, later⟩⟩
  · dsimp only
    rw [beq_iff_eq]
    constructor
    · rintro rfl
      exact ⟨[], (List.append_nil _).symm, rfl⟩
    · rintro ⟨_, rfl, rfl⟩
      exact (List.append_nil _).symm
  · dsimp only
    rw [Bool.and_eq_true, List.isPrefixOf_iff_prefix, endsWithPieces_iff]
    constructor
    · rintro ⟨⟨rest, rfl⟩, h⟩
      rw [List.drop_left] at h
      exact ⟨rest, rfl, h⟩
    · rintro ⟨rest, rfl, h⟩
      refine ⟨⟨rest, rfl⟩, ?_⟩
      rw [List.drop_left]
      exact h

instance (pattern text : List Char) : Decidable (Fits pattern text) :=
  decidable_of_iff _ globMatches_iff

end RecordQuery.Text
