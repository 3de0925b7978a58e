/-!
# Pieces between separators

A text falls into pieces at each occurrence of a separator character, one piece more than there are separators.

* `pieces_append_separator` : a separator closes the first piece;
* `pieces_of_not_mem`       : a text without the separator is one piece.
-/

namespace Downhill.Text

/-- Puts a character in front of the pieces of what follows it. -/
def pushPiece (separator c : Char) (pieces : List (List Char)) : List (List Char) :=
  if c = separator then [] :: pieces
  else match pieces with
    | [] => [[c]]
    | piece :: rest => (c :: piece) :: rest

/-- What stands between the separators of a text. -/
def pieces (separator : Char) (text : List Char) : List (List Char) :=
  text.foldr (pushPiece separator) [[]]

variable (separator : Char)

theorem pieces_ne_nil (text : List Char) : pieces separator text ≠ [] := by
  cases text with
  | nil => simp [pieces]
  | cons c text =>
    simp only [pieces, List.foldr_cons, pushPiece]
    split
    · simp
    · split <;> simp

variable {separator}

theorem pieces_of_not_mem {piece : List Char} (h : separator ∉ piece) : pieces separator piece = [piece] := by
  induction piece with
  | nil => rfl
  | cons c piece ih =>
    simp only [List.mem_cons, not_or] at h
    have ih : piece.foldr (pushPiece separator) [[]] = [piece] := ih h.2
    simp [pieces, ih, pushPiece, Ne.symm h.1]

theorem pieces_append_separator {piece : List Char} (h : separator ∉ piece) (rest : List Char) :
    pieces separator (piece ++ separator :: rest) = piece :: pieces separator rest := by
  induction piece with
  | nil => simp [pieces, pushPiece]
  | cons c piece ih =>
    simp only [List.mem_cons, not_or] at h
    have ih : (piece ++ separator :: rest).foldr (pushPiece separator) [[]] = piece :: pieces separator rest :=
      ih h.2
    simp [pieces, ih, pushPiece, Ne.symm h.1]

end Downhill.Text
