/-!
# Cutting a text at a separator

* `cut sep text` is the text before the first separator and, if there is one, the text after it.
* `pieces sep text` cuts at every separator.

Nothing is lost: the parts of either, joined by the separator, are the text again (`join_cut`,
`join_pieces`), and no part but the rest of a cut holds a separator (`not_mem_cut_fst`,
`not_mem_of_mem_pieces`).
-/

namespace RecordQuery.Text

/-! ## One cut -/

/-- The text before the first `sep`, and the text after it if `sep` occurs. -/
def cut (sep : Char) : List Char → List Char × Option (List Char)
  | [] => ([], none)
  | c :: rest =>
    if c = sep then ([], some rest)
    else ((c :: (cut sep rest).1), (cut sep rest).2)

/-- There is no separator in the empty text. -/
@[simp] theorem cut_nil (sep : Char) : cut sep [] = ([], none) := rfl

/-- A character that is no separator goes into the first part. -/
theorem cut_cons_of_ne {sep c : Char} (h : c ≠ sep) (rest : List Char) :
    cut sep (c :: rest) = (c :: (cut sep rest).1, (cut sep rest).2) := by
  simp [cut, h]

/-- The two parts and the separator between them make up the text. -/
theorem join_cut (sep : Char) (text : List Char) :
    (cut sep text).1 ++ ((cut sep text).2.elim [] (sep :: ·)) = text := by
  induction text with
  | nil => rfl
  | cons c rest ih =>
    by_cases h : c = sep
    · simp [cut, h]
    · simpa [cut, h] using ih

/-- The first part holds no separator. -/
theorem not_mem_cut_fst (sep : Char) (text : List Char) : sep ∉ (cut sep text).1 := by
  induction text with
  | nil => simp
  | cons c rest ih =>
    by_cases h : c = sep
    · simp [cut, h]
    · simp [cut, h, ih, Ne.symm h]

/-- A text without the separator is not cut. -/
theorem cut_of_not_mem {sep : Char} {text : List Char} (h : sep ∉ text) :
    cut sep text = (text, none) := by
  induction text with
  | nil => rfl
  | cons c rest ih =>
    simp only [List.mem_cons, not_or] at h
    rw [cut_cons_of_ne (Ne.symm h.1), ih h.2]

/-- A text is cut at the separator that follows a part without one. -/
theorem cut_append {sep : Char} {first : List Char} (h : sep ∉ first) (rest : List Char) :
    cut sep (first ++ sep :: rest) = (first, some rest) := by
  induction first with
  | nil => simp [cut]
  | cons c first ih =>
    simp only [List.mem_cons, not_or] at h
    rw [List.cons_append, cut_cons_of_ne (Ne.symm h.1), ih h.2]

/-! ## Every cut -/

/-- The parts of a text between its separators, in order. There is always at least one. -/
def pieces (sep : Char) : List Char → List Char × List (List Char)
  | [] => ([], [])
  | c :: rest =>
    if c = sep then ([], (pieces sep rest).1 :: (pieces sep rest).2)
    else (c :: (pieces sep rest).1, (pieces sep rest).2)

/-- The empty text is one empty piece. -/
@[simp] theorem pieces_nil (sep : Char) : pieces sep [] = ([], []) := rfl

/-- The parts with a separator before each but the first make up the text. -/
theorem join_pieces (sep : Char) (text : List Char) :
    (pieces sep text).1 ++ (pieces sep text).2.flatMap (sep :: ·) = text := by
  induction text with
  | nil => rfl
  | cons c rest ih =>
    by_cases h : c = sep
    · simpa [pieces, h] using ih
    · simpa [pieces, h] using ih

/-- No part holds a separator. -/
theorem not_mem_of_mem_pieces (sep : Char) (text : List Char) :
    sep ∉ (pieces sep text).1 ∧ ∀ piece ∈ (pieces sep text).2, sep ∉ piece := by
  induction text with
  | nil => simp
  | cons c rest ih =>
    by_cases h : c = sep
    · simpa [pieces, h] using ih
    · simpa [pieces, h, Ne.symm h] using ih

end RecordQuery.Text
