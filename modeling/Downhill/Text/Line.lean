import Downhill.Text.Pieces

/-!
# Lines of a text

A newline ends a line, and a carriage return directly before that newline belongs to the line's end. The last line
may lack its newline; a carriage return at its end is then part of the line. A text that ends in a newline has no
further, empty line, and the empty text has no line at all.

* `lines_append_newline` : a text that starts with a closed line has that line first, then the lines of the rest;
* `lines_of_not_mem`     : a text without a newline is one line, or none if it is empty.
-/

namespace Downhill.Text

/-- A closed line without the carriage return of its line end. -/
def dropReturn (line : List Char) : List Char :=
  if line.getLast? = some '\r' then line.dropLast else line

/-- The lines of a text: the pieces that a newline closes, and the last one if it holds anything. -/
def lines (text : List Char) : List (List Char) :=
  (pieces '\n' text).dropLast.map dropReturn ++ (pieces '\n' text).getLast?.toList.filter (· ≠ [])

theorem lines_of_not_mem {line : List Char} (h : '\n' ∉ line) : lines line = if line = [] then [] else [line] := by
  simp only [lines, pieces_of_not_mem h]
  split <;> simp_all

theorem lines_append_newline {line : List Char} (h : '\n' ∉ line) (rest : List Char) :
    lines (line ++ '\n' :: rest) = dropReturn line :: lines rest := by
  simp only [lines, pieces_append_separator h]
  have := pieces_ne_nil '\n' rest
  cases hp : pieces '\n' rest with
  | nil => contradiction
  | cons p ps => simp [List.dropLast, List.getLast?]

end Downhill.Text
