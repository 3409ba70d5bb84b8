import Mathlib.Computability.Language
import RecordQuery.Catalog
import RecordQuery.Proofs.Eval.Outcome
import RecordQuery.Proofs.Text.Glob

/-!
# Matching texts with star patterns

The operator `~=` on a text and a pattern. What a pattern stands for can be said in three ways:

* every star of it is replaced by some run of characters (`Text.Fits`);
* cut at its stars, it is found piece by piece in the text, with some run of characters before each
  piece but the first and nothing left behind the last (`Text.fits_iff_exists_gaps`);
* it is an expression over characters, the pieces joined by any run of characters, which has to
  match the text from end to end (`Text.mem_pieceLanguage`).

**Main statement** (`Expr.fits_star_pattern`): on a string or an identifier the operator succeeds,
and its answer is each of these.
-/

namespace RecordQuery

namespace Text

/-! ## Pieces and gaps -/

/-- The gaps in front of the pieces can be named. -/
theorem filled_iff_exists_gaps {later : List (List Char)} {text : List Char} :
    Filled later text ↔ ∃ gaps : List (List Char), gaps.length = later.length ∧
      text = (List.zipWith (· ++ ·) gaps later).flatten := by
  induction later generalizing text with
  | nil =>
      constructor
      · rintro rfl
        exact ⟨[], rfl, rfl⟩
      · rintro ⟨gaps, -, rfl⟩
        simp [Filled]
  | cons piece later ih =>
      constructor
      · rintro ⟨gap, rest, rfl, hrest⟩
        obtain ⟨gaps, hlength, rfl⟩ := ih.mp hrest
        exact ⟨gap :: gaps, congrArg (· + 1) hlength, by simp⟩
      · rintro ⟨gaps, hlength, rfl⟩
        obtain ⟨gap, gaps, rfl⟩ := List.exists_cons_of_length_eq_add_one hlength
        refine ⟨gap, _, ?_, ih.mpr ⟨gaps, Nat.succ.inj hlength, rfl⟩⟩
        simp

/-- **A text fits a pattern** exactly if it is made of the pieces of the pattern with some run of
characters in the place of each star. -/
theorem fits_iff_exists_gaps {pattern text : List Char} :
    Fits pattern text ↔ ∃ gaps : List (List Char),
      gaps.length = (pieces '*' pattern).2.length ∧
        text = (pieces '*' pattern).1 ++
          (List.zipWith (· ++ ·) gaps (pieces '*' pattern).2).flatten := by
  rw [fits_iff_filled]
  constructor
  · rintro ⟨rest, rfl, hrest⟩
    obtain ⟨gaps, hlength, rfl⟩ := filled_iff_exists_gaps.mp hrest
    exact ⟨gaps, hlength, rfl⟩
  · rintro ⟨gaps, hlength, rfl⟩
    exact ⟨_, rfl, filled_iff_exists_gaps.mpr ⟨gaps, hlength, rfl⟩⟩

/-! ## Pieces as an expression -/

/-- The texts that an expression matches from end to end which is made of pieces, each standing for
itself, joined by any run of characters. -/
def pieceLanguage (pieces : List (List Char)) : Language Char :=
  ((pieces.map fun piece => ({piece} : Language Char)).intersperse ⊤).prod

/-- A single piece stands for itself. -/
theorem pieceLanguage_singleton (piece : List Char) : pieceLanguage [piece] = {piece} := by
  simp [pieceLanguage]

/-- Several pieces are the first one, a run of characters, and the others. -/
theorem pieceLanguage_cons_cons (piece next : List Char) (later : List (List Char)) :
    pieceLanguage (piece :: next :: later) = {piece} * (⊤ * pieceLanguage (next :: later)) := by
  simp [pieceLanguage]

/-- The texts of several pieces begin with the first one, and the others fill the rest. -/
theorem mem_pieceLanguage_cons {piece : List Char} {later : List (List Char)} {text : List Char} :
    text ∈ pieceLanguage (piece :: later) ↔ ∃ rest, text = piece ++ rest ∧ Filled later rest := by
  induction later generalizing piece text with
  | nil =>
      rw [pieceLanguage_singleton]
      constructor
      · rintro rfl
        exact ⟨[], (List.append_nil _).symm, rfl⟩
      · rintro ⟨_, rfl, rfl⟩
        exact List.append_nil piece
  | cons next later ih =>
      rw [pieceLanguage_cons_cons, Language.mem_mul]
      constructor
      · rintro ⟨_, rfl, _, hrest, rfl⟩
        obtain ⟨gap, -, _, hnext, rfl⟩ := Language.mem_mul.mp hrest
        obtain ⟨rest, rfl, hlater⟩ := ih.mp hnext
        exact ⟨_, rfl, gap, rest, rfl, hlater⟩
      · rintro ⟨_, rfl, gap, rest, rfl, hlater⟩
        have hnext : next ++ rest ∈ pieceLanguage (next :: later) := ih.mpr ⟨rest, rfl, hlater⟩
        exact ⟨piece, rfl, _, Language.mem_mul.mpr ⟨gap, trivial, _, hnext, rfl⟩, rfl⟩

/-- **A text fits a pattern** exactly if the expression of its pieces matches it. -/
theorem mem_pieceLanguage {pattern text : List Char} :
    text ∈ pieceLanguage ((pieces '*' pattern).1 :: (pieces '*' pattern).2) ↔
      Fits pattern text := by
  rw [mem_pieceLanguage_cons, fits_iff_filled]

end Text

/-! ## The operator -/

/-- A string or an identifier is matched with a pattern by its text. -/
theorem Operator.fit_of_text {left : Value} {text : String} (h : left.text? = some text)
    (pattern : String) :
    fit left (.string pattern) = .ok (Text.globMatches pattern.toList text.toList) := by
  unfold Value.text? at h
  split at h
  · obtain rfl := Option.some.inj h
    rfl
  · obtain rfl := Option.some.inj h
    rfl
  · cases h

namespace Expr

/-- What `~=` gives where both operands have a value and these can be matched. -/
theorem run_fits {ctx : Context} {target pattern : Expr} {left right : Value} {answer : Bool}
    {state middle final : State} {trace trace' : Trace}
    (htarget : (target.value ctx).run state = ⟨.ok left, middle, trace⟩)
    (hpattern : (pattern.value ctx).run middle = ⟨.ok right, final, trace'⟩)
    (h : Operator.fit left right = .ok answer) :
    ((target.fits pattern).value ctx).run state = ⟨.ok (.boolean answer), final, trace ++ trace'⟩ := by
  rw [Expr.value, fits, meaning, meanings, meanings, meanings]
  show (target.value ctx >>= fun left => pattern.value ctx >>= fun right => _).run state = _
  rw [Eval.run_bind_bind_ok htarget hpattern, h, Except.map, Eval.run_report, Outcome.after,
    List.append_nil]

/-- **A star pattern means what it says.** Matching a string or an identifier with a pattern
succeeds, after both operands were evaluated and without any effect of its own. The answer is
whether the text is the pattern with each star replaced by some run of characters, every other
character standing for itself; that is, whether there are as many runs of characters as stars with
which the pieces between the stars make up the text, in order and without overlap; that is, whether
the expression of these pieces, joined by any run of characters, matches the whole text. -/
theorem fits_star_pattern {ctx : Context} {target pattern : Expr} {left : Value}
    {text glob : String} {state middle final : State} {trace trace' : Trace}
    (htext : left.text? = some text)
    (htarget : (target.value ctx).run state = ⟨.ok left, middle, trace⟩)
    (hpattern : (pattern.value ctx).run middle = ⟨.ok (.string glob), final, trace'⟩) :
    ∃ answer, ((target.fits pattern).value ctx).run state =
        ⟨.ok (.boolean answer), final, trace ++ trace'⟩ ∧
      (answer = true ↔ Text.Fits glob.toList text.toList) ∧
      (answer = true ↔ ∃ gaps : List (List Char),
        gaps.length = (Text.pieces '*' glob.toList).2.length ∧
          text.toList = (Text.pieces '*' glob.toList).1 ++
            (List.zipWith (· ++ ·) gaps (Text.pieces '*' glob.toList).2).flatten) ∧
      (answer = true ↔ text.toList ∈
        Text.pieceLanguage ((Text.pieces '*' glob.toList).1 :: (Text.pieces '*' glob.toList).2)) := by
  have hrun := run_fits htarget hpattern (Operator.fit_of_text htext glob)
  refine ⟨_, hrun, Text.globMatches_iff, ?_, ?_⟩
  · rw [Text.globMatches_iff, Text.fits_iff_exists_gaps]
  · rw [Text.globMatches_iff, Text.mem_pieceLanguage]

/-- A point and a line break are characters like others, and a piece is not matched with what
another one was matched with before. -/
theorem fits_star_pattern_overlap :
    let ctx : Context := ⟨.none, none, Catalog.queries []⟩
    (((literal (.id ⟨"a.b\nc"⟩)).fits (literal (.string "a.*c"))).value ctx).run .initial =
        ⟨.ok (.boolean true), .initial, []⟩ ∧
      (((literal (.string "aba")).fits (literal (.string "ab*ba"))).value ctx).run .initial =
        ⟨.ok (.boolean false), .initial, []⟩ := by
  intro ctx
  have hid : (Value.id ⟨"a.b\nc"⟩).text? = some "a.b\nc" := rfl
  have hstring : (Value.string "aba").text? = some "aba" := rfl
  obtain ⟨answer, hrun, -, hgaps, -⟩ := fits_star_pattern hid
    (run_literal ctx _ .initial) (run_literal ctx (.string "a.*c") .initial)
  obtain ⟨answer', hrun', hfits', -⟩ := fits_star_pattern hstring
    (run_literal ctx _ .initial) (run_literal ctx (.string "ab*ba") .initial)
  obtain rfl : answer = true := hgaps.mpr ⟨["b\n".toList], rfl, rfl⟩
  have hnot : ¬Text.Fits "ab*ba".toList "aba".toList := by decide
  obtain rfl : answer' = false := Bool.eq_false_iff.mpr fun h => hnot (hfits'.mp h)
  exact ⟨hrun, hrun'⟩

end Expr

end RecordQuery
