import RecordQuery.Text.Cut

/-!
# Star patterns

A pattern is a text in which each `*` stands for any run of characters, the empty run included,
and every other character stands for itself. A pattern matches a whole text.

The stars cut the pattern into pieces. Without a star the text has to be the one piece. Otherwise
the first piece has to begin the text, the last piece has to end what the others leave, and each
piece between is taken where it occurs first: an earlier occurrence leaves more text to the pieces
after it, so no later choice can succeed where this one fails.
-/

namespace RecordQuery.Text

/-- The text after the first occurrence of `piece`, if it occurs. -/
def afterFirst (piece : List Char) : List Char → Option (List Char)
  | [] => if piece = [] then some [] else none
  | c :: rest =>
    if piece.isPrefixOf (c :: rest) then some ((c :: rest).drop piece.length)
    else afterFirst piece rest

/-- Whether `text` holds the pieces in order, without overlap, with the last of them at its end.
The last piece is the last element of the list, or `piece` if the list is empty. -/
def endsWithPieces (piece : List Char) : List (List Char) → List Char → Bool
  | [], text => piece.isSuffixOf text
  | next :: later, text =>
    match afterFirst piece text with
    | some rest => endsWithPieces next later rest
    | none => false

/-- Whether the star pattern matches the whole text. -/
def globMatches (pattern text : List Char) : Bool :=
  match pieces '*' pattern with
  | (piece, []) => piece == text
  | (first, next :: later) =>
    first.isPrefixOf text && endsWithPieces next later (text.drop first.length)

/-- Pieces never overlap: the two ends of the pattern need three characters. -/
example : globMatches "ab*ba".toList "aba".toList = false := by decide

/-- A star matches line breaks and the empty run. -/
example : globMatches "a*b*".toList "a\nxb".toList = true := by decide

end RecordQuery.Text
