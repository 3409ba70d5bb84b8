import RecordQuery.Text.Blank

/-!
# Blank margins

A text whose ends are not blank has no margin to trim, and what is left of a text by trimming is
such a text.

* `Text.trim_eq_self`: only a margin is taken away.
* `Text.endsBlank_trim`: none is left at the end, and so none at the end of any suffix
  (`Text.endsBlank_of_suffix`).
-/

namespace RecordQuery.Text

/-- Whether a text begins with a blank character. -/
def startsBlank (text : List Char) : Bool :=
  text.head?.any isBlank

/-- Whether a text ends in a blank character. -/
def endsBlank (text : List Char) : Bool :=
  text.getLast?.any isBlank

/-- A text ends in a blank if its reverse begins with one. -/
theorem endsBlank_reverse (text : List Char) : endsBlank text.reverse = startsBlank text := by
  unfold endsBlank startsBlank
  rw [List.getLast?_reverse]

/-- A text without its front margin does not begin with a blank. -/
theorem startsBlank_dropWhile (text : List Char) : startsBlank (text.dropWhile isBlank) = false := by
  have hhead := List.head?_dropWhile_not isBlank text
  unfold startsBlank
  rcases hdrop : (text.dropWhile isBlank).head? with _ | c
  · rfl
  · rw [hdrop] at hhead
    exact hhead

/-- A text that does not begin with a blank has no front margin. -/
theorem dropWhile_eq_self {text : List Char} (h : startsBlank text = false) :
    text.dropWhile isBlank = text := by
  cases text with
  | nil => rfl
  | cons c rest =>
      have hc : isBlank c = false := h
      rw [List.dropWhile_cons, hc]
      rfl

/-- **A text without a blank margin stays as it is.** -/
theorem trim_eq_self {text : List Char} (hstart : startsBlank text = false)
    (hend : endsBlank text = false) : trim text = text := by
  have hreverse : startsBlank text.reverse = false := by
    rw [← endsBlank_reverse, List.reverse_reverse, hend]
  unfold trim
  rw [dropWhile_eq_self hstart, dropWhile_eq_self hreverse, List.reverse_reverse]

/-- **A trimmed text does not end in a blank character.** -/
theorem endsBlank_trim (text : List Char) : endsBlank (trim text) = false := by
  unfold trim
  rw [endsBlank_reverse, startsBlank_dropWhile]

/-- Trimming adds nothing. -/
theorem mem_of_mem_trim {c : Char} {text : List Char} (h : c ∈ trim text) : c ∈ text := by
  unfold trim at h
  rw [List.mem_reverse] at h
  have hfront := (List.dropWhile_suffix isBlank).subset h
  rw [List.mem_reverse] at hfront
  exact (List.dropWhile_suffix isBlank).subset hfront

/-- Whether a text ends in a blank is decided by its back part, if that is not empty. -/
theorem endsBlank_append {back : List Char} (h : back ≠ []) (front : List Char) :
    endsBlank (front ++ back) = endsBlank back := by
  unfold endsBlank
  rw [List.getLast?_append, List.getLast?_eq_some_getLast h, Option.some_or]

/-- What stands before a separator does not matter to the end of a text. -/
theorem endsBlank_append_cons {back : List Char} (h : back ≠ []) (front : List Char) (sep : Char) :
    endsBlank (front ++ sep :: back) = endsBlank back := by
  rw [endsBlank_append (List.cons_ne_nil sep back), ← List.singleton_append, endsBlank_append h]

/-- A text ends as its suffixes do. -/
theorem endsBlank_of_suffix {suffix text : List Char} (hsuffix : suffix <:+ text)
    (h : endsBlank text = false) : endsBlank suffix = false := by
  obtain ⟨front, rfl⟩ := hsuffix
  by_cases hempty : suffix = []
  · subst hempty
    rfl
  · rw [← endsBlank_append hempty front]
    exact h

end RecordQuery.Text
