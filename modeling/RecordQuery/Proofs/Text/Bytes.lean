import Mathlib.Data.List.Basic

/-!
# Texts as bytes

A text is kept as bytes, one to four for each character. Two things can be said of it from its
bytes alone:

* **Order** (`Text.bytes_lt_bytes`): texts are ordered as their bytes are. The encoding of the lesser
  of two characters is the lesser one at the first byte where they differ, and neither is the
  beginning of the other (`Text.encoded_append_lt`).
* **Slices** (`Text.slice?_eq_some_iff`): a slice from one place to another is a part of the text if
  both are ends of some number of characters, in order; otherwise there is none.
-/

namespace RecordQuery.Text

/-! ## Order -/

/-- The bytes of a character, as numbers. -/
def encoded (c : Char) : List Nat :=
  (String.utf8EncodeChar c).map UInt8.toNat

/-- The bytes of a text, as numbers. -/
def bytes (text : String) : List Nat :=
  text.toByteArray.data.toList.map UInt8.toNat

/-- The bytes of a text are those of its characters, one after another. -/
theorem bytes_eq_flatMap (text : String) : bytes text = text.toList.flatMap encoded := by
  unfold bytes encoded
  rw [← List.map_flatMap, ← String.ofList_toList (s := text), String.toByteArray_ofList,
    List.utf8Encode, List.data_toByteArray, String.toList_ofList]

/-- Every character takes at least one byte. -/
theorem encoded_ne_nil (c : Char) : encoded c ≠ [] := by
  simp [encoded]

/-- The lesser of two characters has the lesser bytes, whatever follows either. The cases are the
lengths of the two encodings; where both are equally long, the first of their digits to base
sixty-four that differs decides. -/
theorem encoded_append_lt {c d : Char} (h : c < d) (xs ys : List Nat) :
    encoded c ++ xs < encoded d ++ ys := by
  have hlt : c.val.toNat < d.val.toNat := h
  have hmax : d.val.toNat < 0x110000 := by
    have hvalid := d.valid
    unfold UInt32.isValidChar Nat.isValidChar at hvalid
    omega
  unfold encoded String.utf8EncodeChar
  dsimp only
  generalize c.val.toNat = m at *
  generalize d.val.toNat = n at *
  have hdigits : m / 262144 < n / 262144 ∨ m / 262144 = n / 262144 ∧ (m / 4096 < n / 4096 ∨
      m / 4096 = n / 4096 ∧ (m / 64 < n / 64 ∨ m / 64 = n / 64)) := by omega
  clear h
  split_ifs
  all_goals try omega
  all_goals
    simp only [List.map_cons, List.map_nil, List.cons_append, List.nil_append,
      List.cons_lt_cons_iff, UInt8.toNat_ofNat']
    rcases hdigits with h | ⟨h, h | ⟨h, h | h⟩⟩ <;> omega

/-- Texts that are in order by their characters are in order by their bytes. -/
theorem flatMap_encoded_lt {cs ds : List Char} (h : cs < ds) :
    cs.flatMap encoded < ds.flatMap encoded := by
  induction cs generalizing ds with
  | nil =>
      rcases ds with _ | ⟨d, ds⟩
      · exact absurd h (List.not_lt_nil [])
      · obtain ⟨byte, rest, hd⟩ := List.exists_cons_of_ne_nil (encoded_ne_nil d)
        simp [hd]
  | cons c cs ih =>
      rcases ds with _ | ⟨d, ds⟩
      · exact absurd h (List.not_lt_nil _)
      · rw [List.flatMap_cons, List.flatMap_cons]
        rcases List.cons_lt_cons_iff.mp h with hlt | ⟨rfl, hlt⟩
        · exact encoded_append_lt hlt _ _
        · exact List.append_left_lt (ih hlt)

/-- **Texts are ordered as their bytes are.** -/
theorem bytes_lt_bytes {s t : String} : bytes s < bytes t ↔ s < t := by
  have hmono : ∀ {s t : String}, s < t → bytes s < bytes t := by
    intro s t h
    rw [bytes_eq_flatMap, bytes_eq_flatMap]
    exact flatMap_encoded_lt (String.lt_iff.mp h)
  refine ⟨fun h => ?_, hmono⟩
  by_contra hnot
  by_cases hgt : t < s
  · exact List.lt_asymm h (hmono hgt)
  · obtain rfl : s = t := String.le_antisymm (String.not_lt.mp hgt) (String.not_lt.mp hnot)
    exact List.lt_irrefl _ h

/-- Texts with the same bytes are the same. -/
theorem bytes_inj {s t : String} : bytes s = bytes t ↔ s = t := by
  refine ⟨fun h => ?_, congrArg bytes⟩
  apply String.le_antisymm
  all_goals
    rw [← String.not_lt, ← bytes_lt_bytes, h]
    exact List.lt_irrefl _

/-! ## Slices -/

/-- The part of a text from the byte at `start` up to that at `stop`. There is none if these places
are in the wrong order, lie behind the end of the text or in the middle of a character. -/
def slice? (text : String) (start stop : Nat) : Option String :=
  if h : start ≤ stop ∧ String.Pos.Raw.IsValid text ⟨start⟩ ∧ String.Pos.Raw.IsValid text ⟨stop⟩ then
    some (text.extract ⟨⟨start⟩, h.2.1⟩ ⟨⟨stop⟩, h.2.2⟩)
  else none

/-- The bytes of a part are those that stand between the bytes before it and behind it. -/
theorem extract_bytes_append (front part back : String) :
    (front ++ part ++ back).toByteArray.extract front.utf8ByteSize
      (front ++ part).utf8ByteSize = part.toByteArray := by
  have hfront : front.toByteArray.size = front.utf8ByteSize := String.size_toByteArray
  have hboth : (front ++ part).toByteArray.size = (front ++ part).utf8ByteSize :=
    String.size_toByteArray
  rw [String.toByteArray_append, ByteArray.extract_append, hboth, Nat.sub_self,
    String.toByteArray_append, ByteArray.extract_append_eq_right hfront.symm
      (by rw [← hboth, String.toByteArray_append, ByteArray.size_append])]
  simp

/-- A part of a text is the slice between the byte at which it begins and the one at which it ends.
-/
theorem slice?_append (front part back : String) :
    slice? (front ++ part ++ back) front.utf8ByteSize (front ++ part).utf8ByteSize = some part := by
  have hstart : String.Pos.Raw.IsValid (front ++ part ++ back) ⟨front.utf8ByteSize⟩ :=
    String.Pos.Raw.isValid_iff_exists_append.mpr ⟨front, part ++ back, String.append_assoc, rfl⟩
  have hstop : String.Pos.Raw.IsValid (front ++ part ++ back) ⟨(front ++ part).utf8ByteSize⟩ :=
    String.Pos.Raw.isValid_iff_exists_append.mpr ⟨front ++ part, back, rfl, rfl⟩
  have hle : front.utf8ByteSize ≤ (front ++ part).utf8ByteSize := by
    rw [String.utf8ByteSize_append]
    exact Nat.le_add_right _ _
  unfold slice?
  rw [dif_pos ⟨hle, hstart, hstop⟩, Option.some_inj, ← String.toByteArray_inj,
    String.toByteArray_extract]
  exact extract_bytes_append front part back

/-- Of two beginnings of a text, the one that is not longer begins the other. -/
theorem exists_eq_append_of_append_eq {front rest both back : String}
    (h : front ++ rest = both ++ back) (hle : front.utf8ByteSize ≤ both.utf8ByteSize) :
    ∃ part, both = front ++ part := by
  have hletters : front.toList ++ rest.toList = both.toList ++ back.toList := by
    rw [← String.toList_append, h, String.toList_append]
  rcases List.append_eq_append_iff.mp hletters with ⟨part, hboth, -⟩ | ⟨part, hfront, -⟩
  · refine ⟨String.ofList part, ?_⟩
    rw [← String.toList_inj, hboth, String.toList_append, String.toList_ofList]
  · have hextended : front = both ++ String.ofList part := by
      rw [← String.toList_inj, hfront, String.toList_append, String.toList_ofList]
    have hempty : String.ofList part = "" := by
      rw [hextended, String.utf8ByteSize_append] at hle
      rw [← String.utf8ByteSize_eq_zero_iff]
      omega
    rw [hempty, String.append_empty] at hextended
    exact ⟨"", by rw [hextended, String.append_empty]⟩

/-- **A slice is a part of the text**: it is there exactly if the places are the two ends of it. -/
theorem slice?_eq_some_iff {text part : String} {start stop : Nat} :
    slice? text start stop = some part ↔
      ∃ front back, text = front ++ part ++ back ∧ start = front.utf8ByteSize ∧
        stop = (front ++ part).utf8ByteSize := by
  constructor
  · intro h
    have hplaces : start ≤ stop ∧ String.Pos.Raw.IsValid text ⟨start⟩ ∧
        String.Pos.Raw.IsValid text ⟨stop⟩ := by
      by_contra hnot
      rw [slice?, dif_neg hnot] at h
      cases h
    obtain ⟨hle, hstart, hstop⟩ := hplaces
    obtain ⟨both, back, rfl, hboth⟩ := String.Pos.Raw.isValid_iff_exists_append.mp hstop
    obtain ⟨front, rest, happend, hfront⟩ := String.Pos.Raw.isValid_iff_exists_append.mp hstart
    obtain rfl : stop = both.utf8ByteSize := congrArg String.Pos.Raw.byteIdx hboth
    obtain rfl : start = front.utf8ByteSize := congrArg String.Pos.Raw.byteIdx hfront
    obtain ⟨middle, rfl⟩ := exists_eq_append_of_append_eq happend.symm hle
    rw [slice?_append] at h
    obtain rfl := Option.some.inj h
    exact ⟨front, back, rfl, rfl, rfl⟩
  · rintro ⟨front, back, rfl, rfl, rfl⟩
    exact slice?_append front part back

end RecordQuery.Text
