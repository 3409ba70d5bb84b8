import RecordQuery.Proofs.Text.Blank
import RecordQuery.Version.Reader

/-!
# Reading written versions back

A version is written as its three numbers and its qualifier, and the reader cuts at the first three
points only, so the qualifier may hold any characters. What the reader takes away is a blank margin:
a version comes back as it was unless its qualifier ends in a blank character.

* `Version.parse_text`: such a version is read back.
* `Version.qualifier_suffix_of_parse`: the qualifier of a version that was read ends the text, so
  that it does not end in a blank (`Version.endsBlank_of_parse`).
* **Main statement** (`Version.parse_text_eq_ok_iff`): both, as a condition on the qualifier.
-/

namespace RecordQuery

/-- A computation of two steps gives a result only if both do. -/
theorem exists_of_bind_eq_ok {ε α β : Type} {first : Except ε α} {next : α → Except ε β} {b : β}
    (h : first >>= next = .ok b) : ∃ a, first = .ok a ∧ next a = .ok b := by
  cases first with
  | error e => cases h
  | ok a => exact ⟨a, rfl, h⟩

/-- Results and errors can be compared where their contents can, so that what the reader makes of a
given text is decided by running it. -/
instance instDecidableEqExcept {ε α : Type} [DecidableEq ε] [DecidableEq α] :
    DecidableEq (Except ε α)
  | .ok a, .ok b => decidable_of_iff (a = b) (by simp)
  | .error e, .error e' => decidable_of_iff (e = e') (by simp)
  | .ok _, .error _ | .error _, .ok _ => isFalse nofun

namespace Version

open RecordQuery.Text

/-! ## Numbers -/

/-- A number is written in digits. -/
theorem isDigit_of_mem_numeral {n : UInt32} {c : Char} (h : c ∈ numeral n) : c.isDigit = true :=
  Nat.isDigit_of_mem_toDigits (by decide) (by decide) h

/-- What is no digit is not in a written number. -/
theorem not_mem_numeral {n : UInt32} {c : Char} (hc : c.isDigit = false) : c ∉ numeral n := by
  intro hmem
  rw [isDigit_of_mem_numeral hmem] at hc
  cases hc

/-- A number is written in one digit at least. -/
theorem numeral_ne_nil (n : UInt32) : numeral n ≠ [] :=
  Nat.toDigits_ne_nil

/-- A number is written without a sign. -/
theorem unsigned_numeral (n : UInt32) : unsigned (numeral n) = numeral n := by
  have hplus : '+' ∉ numeral n := not_mem_numeral (by decide)
  unfold unsigned
  split
  · rename_i digits hdigits
    rw [hdigits] at hplus
    exact absurd List.mem_cons_self hplus
  · rfl

/-- A written number is read back. -/
theorem number?_numeral (n : UInt32) : number? (numeral n) = some n := by
  have hvalue : Nat.ofDigitChars 10 (numeral n) 0 = n.toNat :=
    Nat.ofDigitChars_toDigits (by decide) (by decide)
  unfold number?
  dsimp only
  rw [unsigned_numeral, hvalue, UInt32.ofNat_toNat]
  refine if_pos ⟨numeral_ne_nil n, ?_, n.toNat_lt_size⟩
  rw [List.all_eq_true]
  intro c hmem
  exact isDigit_of_mem_numeral hmem

/-- A written number is read up to the point behind it. -/
theorem readNumber_numeral_dot (input : String) (n : UInt32) (rest : List Char) :
    readNumber input (some (numeral n ++ '.' :: rest)) = .ok (n, some rest) := by
  rw [readNumber, cut_append (not_mem_numeral (by decide)), number?_numeral]

/-- A written number at the end of the text is read to the end. -/
theorem readNumber_numeral (input : String) (n : UInt32) :
    readNumber input (some (numeral n)) = .ok (n, none) := by
  rw [readNumber, cut_of_not_mem (not_mem_numeral (by decide)), number?_numeral]

/-! ## Letters -/

/-- Without a qualifier a version is written as three numbers. -/
theorem letters_of_isEmpty {v : Version} (h : v.qualifier.isEmpty = true) :
    v.letters = numeral v.major ++ '.' :: (numeral v.minor ++ '.' :: numeral v.micro) := by
  rw [letters, if_pos h, List.append_nil]

/-- With one the qualifier follows behind a third point. -/
theorem letters_of_not_isEmpty {v : Version} (h : v.qualifier.isEmpty ≠ true) :
    v.letters = numeral v.major ++ '.' :: (numeral v.minor ++ '.' ::
      (numeral v.micro ++ '.' :: v.qualifier.toList)) := by
  rw [letters, if_neg h]

/-- A written version begins with a digit. -/
theorem exists_digit_cons_letters (v : Version) :
    ∃ digit rest, digit.isDigit = true ∧ v.letters = digit :: rest := by
  rcases hnumeral : numeral v.major with _ | ⟨digit, digits⟩
  · exact absurd hnumeral (numeral_ne_nil _)
  · have hmem : digit ∈ numeral v.major := hnumeral ▸ List.mem_cons_self
    unfold letters
    rw [hnumeral]
    exact ⟨digit, _, isDigit_of_mem_numeral hmem, List.cons_append⟩

/-- A written version begins with a digit. -/
theorem letters_ne_cons {v : Version} {c : Char} (h : c.isDigit = false) (rest : List Char) :
    v.letters ≠ c :: rest := by
  obtain ⟨digit, digits, hdigit, hletters⟩ := v.exists_digit_cons_letters
  intro heq
  obtain rfl : digit = c := (List.cons.inj (hletters.symm.trans heq)).1
  rw [hdigit] at h
  cases h

/-- A written version is not empty. -/
theorem letters_ne_nil (v : Version) : v.letters ≠ [] := by
  obtain ⟨digit, digits, -, hletters⟩ := v.exists_digit_cons_letters
  exact hletters ▸ List.cons_ne_nil digit digits

/-- Digits are not blank. -/
theorem isBlank_of_isDigit {c : Char} (h : c.isDigit = true) : isBlank c = false := by
  rw [Char.isDigit, Bool.and_eq_true, decide_eq_true_eq, decide_eq_true_eq] at h
  have hlow : 48 ≤ c.toNat := h.1
  have hhigh : c.toNat ≤ 57 := h.2
  simp only [isBlank, blankRanges, List.any_cons, List.any_nil, Bool.or_eq_false_iff,
    Bool.and_eq_false_iff, decide_eq_false_iff_not, Nat.not_le, and_true]
  omega

/-- A written version does not begin with a blank. -/
theorem startsBlank_letters (v : Version) : startsBlank v.letters = false := by
  obtain ⟨digit, digits, hdigit, hletters⟩ := v.exists_digit_cons_letters
  rw [hletters]
  exact isBlank_of_isDigit hdigit

/-- A written number does not end in a blank. -/
theorem endsBlank_numeral (n : UInt32) : endsBlank (numeral n) = false := by
  unfold endsBlank
  rw [List.getLast?_eq_some_getLast (numeral_ne_nil n)]
  exact isBlank_of_isDigit (isDigit_of_mem_numeral (List.getLast_mem _))

/-- A written version ends in a digit, or as its qualifier does. -/
theorem endsBlank_letters (v : Version) : endsBlank v.letters = endsBlank v.qualifier.toList := by
  by_cases hempty : v.qualifier.isEmpty = true
  · have hnil : v.qualifier.toList = [] := by
      rw [String.toList_eq_nil_iff, ← String.isEmpty_iff, hempty]
    rw [letters_of_isEmpty hempty, endsBlank_append_cons (by simp),
      endsBlank_append_cons (numeral_ne_nil _), endsBlank_numeral, hnil]
    rfl
  · have hne : v.qualifier.toList ≠ [] := by
      rwa [Ne, String.toList_eq_nil_iff, ← String.isEmpty_iff]
    rw [letters_of_not_isEmpty hempty, endsBlank_append_cons (by simp),
      endsBlank_append_cons (by simp), endsBlank_append_cons hne]

/-! ## Versions -/

/-- What the reader does with a text that is not blank. -/
theorem parse_of_trim_ne_nil {input : String} (h : trim input.toList ≠ []) :
    parse input = (do
      let (major, rest) ← readNumber input (some (trim input.toList))
      let (minor, rest) ← readNumber input rest
      let (micro, rest) ← readNumber input rest
      return ⟨major, minor, micro, String.ofList (rest.getD [])⟩) := by
  unfold parse
  split
  · contradiction
  · rename_i htrim
    rw [htrim]

/-- **A written version is read back**, unless its qualifier ends in a blank character. -/
theorem parse_text {v : Version} (h : endsBlank v.qualifier.toList = false) :
    parse v.text = .ok v := by
  have htrim : trim v.text.toList = v.letters := by
    rw [text, String.toList_ofList, trim_eq_self (startsBlank_letters v)]
    rw [endsBlank_letters, h]
  rw [parse_of_trim_ne_nil (htrim ▸ letters_ne_nil v), htrim]
  obtain ⟨major, minor, micro, qualifier⟩ := v
  by_cases hempty : qualifier.isEmpty = true
  · obtain rfl := String.isEmpty_iff.mp hempty
    rw [letters_of_isEmpty hempty]
    simp only [readNumber_numeral_dot, readNumber_numeral, bind, Except.bind]
    rfl
  · rw [letters_of_not_isEmpty hempty]
    simp only [readNumber_numeral_dot, bind, Except.bind]
    rw [Option.getD_some, String.ofList_toList]
    rfl

/-! ## Versions that were read -/

/-- What is left behind a number ends the text that the number was read from. -/
theorem suffix_of_readNumber {input : String} {text : Option (List Char)} {n : UInt32}
    {rest : Option (List Char)} (h : readNumber input text = .ok (n, rest)) :
    rest.getD [] <:+ text.getD [] := by
  cases text with
  | none =>
      cases h
      exact List.suffix_rfl
  | some text =>
      rw [readNumber] at h
      split at h
      · cases h
        have hjoin := join_cut '.' text
        rcases hrest : (cut '.' text).2 with _ | rest
        · exact List.nil_suffix
        · rw [hrest] at hjoin
          refine ⟨(cut '.' text).1 ++ ['.'], ?_⟩
          rw [List.append_assoc]
          exact hjoin
      · cases h

/-- The qualifier of a version that was read is the end of the text without its margin. -/
theorem qualifier_suffix_of_parse {input : String} {v : Version} (h : parse input = .ok v) :
    v.qualifier.toList <:+ trim input.toList := by
  by_cases htrim : trim input.toList = []
  · unfold parse at h
    rw [htrim] at h
    cases h
  · rw [parse_of_trim_ne_nil htrim] at h
    obtain ⟨⟨major, afterMajor⟩, hmajor, h⟩ := exists_of_bind_eq_ok h
    obtain ⟨⟨minor, afterMinor⟩, hminor, h⟩ := exists_of_bind_eq_ok h
    obtain ⟨⟨micro, rest⟩, hmicro, h⟩ := exists_of_bind_eq_ok h
    cases h
    rw [String.toList_ofList]
    exact (suffix_of_readNumber hmicro).trans <|
      (suffix_of_readNumber hminor).trans (suffix_of_readNumber hmajor)

/-- **A version that was read has a qualifier that does not end in a blank character.** -/
theorem endsBlank_of_parse {input : String} {v : Version} (h : parse input = .ok v) :
    endsBlank v.qualifier.toList = false :=
  endsBlank_of_suffix (qualifier_suffix_of_parse h) (endsBlank_trim _)

/-- **Versions come back exactly if their qualifier survives trimming.** A version with any numbers
and any qualifier is read from its written form as itself if the qualifier does not end in a blank
character, and not as itself if it does. The qualifier of a version that was read never does, so
that its written form is read as that version again, whatever text it was read from. -/
theorem parse_text_eq_ok_iff :
    (∀ v : Version, parse v.text = .ok v ↔ endsBlank v.qualifier.toList = false) ∧
      ∀ (input : String) (v : Version), parse input = .ok v →
        endsBlank v.qualifier.toList = false ∧ parse v.text = .ok v := by
  refine ⟨fun v => ⟨endsBlank_of_parse, parse_text⟩, fun input v h => ?_⟩
  have hend := endsBlank_of_parse h
  exact ⟨hend, parse_text hend⟩

/-- A text with a margin, a sign, leading zeros and a qualifier that begins with a blank and holds a
point is written differently, and read as the same version. -/
theorem parse_text_eq_ok_iff_signed :
    let v : Version := ⟨1, 20, 3, " r.1"⟩
    parse " +1.020.3. r.1\n" = .ok v ∧ v.text = "1.20.3. r.1" ∧
      endsBlank v.qualifier.toList = false ∧ parse v.text = .ok v := by
  intro v
  have hparse : parse " +1.020.3. r.1\n" = .ok v := by decide +kernel
  exact ⟨hparse, by decide +kernel, parse_text_eq_ok_iff.2 _ v hparse⟩

end Version

end RecordQuery
