import Downhill.Proofs.Numerals
import Downhill.Proofs.Rows
import Mathlib.Algebra.GroupWithZero.Nat
import Mathlib.Algebra.Order.BigOperators.Group.List
import Mathlib.Algebra.Order.Group.Nat

/-!
# The extent of a map

Each elevation of a map takes up two characters of its text: a numeral has a digit, and something stands between it
and the next one or ends its line. So a grid has at most half as many cells as its text has characters, whatever the
first line says (`two_mul_size_le_of_parse`).
-/

namespace Downhill

namespace Text

/-! ### Pieces and lines -/

/-- Each piece but the last is followed by a separator. -/
private theorem sum_length_pieces (separator : Char) (text : List Char) :
    ((pieces separator text).map fun piece => piece.length + 1).sum = text.length + 1 := by
  induction text with
  | nil => rfl
  | cons c text ih =>
    have hcons : pieces separator (c :: text) = pushPiece separator c (pieces separator text) := rfl
    rw [hcons]
    unfold pushPiece
    by_cases hc : c = separator
    · rw [if_pos hc, List.map_cons, List.sum_cons, ih, List.length_nil, List.length_cons]
      omega
    · obtain ⟨piece, rest, hrest⟩ := List.exists_cons_of_ne_nil (pieces_ne_nil separator text)
      rw [hrest, List.map_cons, List.sum_cons] at ih
      rw [if_neg hc, hrest, List.map_cons, List.sum_cons, List.length_cons, List.length_cons]
      omega

private theorem length_dropReturn_le (line : List Char) : (dropReturn line).length ≤ line.length := by
  unfold dropReturn
  split <;> simp

private theorem sum_length_lines_le (text : List Char) :
    ((lines text).map fun line => line.length + 1).sum ≤ text.length + 1 := by
  rw [← sum_length_pieces '\n' text, lines]
  rcases List.eq_nil_or_concat (pieces '\n' text) with hnil | ⟨closed, last, hconcat⟩
  · exact absurd hnil (pieces_ne_nil '\n' text)
  · have hclosed : ((closed.map dropReturn).map fun line => line.length + 1).sum ≤
        (closed.map fun line => line.length + 1).sum := by
      rw [List.map_map]
      apply List.sum_le_sum
      intro line _
      exact Nat.succ_le_succ (length_dropReturn_le line)
    have hlast : (([last].filter (· ≠ [])).map fun line => line.length + 1).sum ≤ last.length + 1 := by
      by_cases hne : last = [] <;> simp [hne]
    rw [hconcat, List.concat_eq_append, List.dropLast_concat, List.getLast?_concat, Option.toList_some, List.map_append,
      List.sum_append, List.map_append, List.sum_append, List.map_singleton, List.sum_singleton]
    omega

end Text

namespace Grid

open Text

/-! ### Rows -/

private theorem length_readLine {number : Nat} {line : List Char} {row : List Int64}
    (h : readLine number line = .ok row) :
    row.length = (numerals line).length :=
  (mapM_eq_ok_iff.mp h).length_eq.symm

/-- Each elevation of a row takes up two characters of its line, the end of the line included. -/
private theorem two_mul_length_flatten_le {lines : List (List Char)} {rows : List (List Int64)}
    (h : readRows lines = .ok rows) :
    2 * rows.flatten.length ≤ (lines.map fun line => line.length + 1).sum := by
  have hrows := mapM_eq_ok_iff.mp h
  rw [← List.zipIdx_map_fst 2 lines, List.map_map]
  clear h
  generalize lines.zipIdx 2 = numbered at hrows ⊢
  induction hrows with
  | nil => exact Nat.le_refl _
  | @cons line row numbered rows hline _ ih =>
    have hle := two_mul_length_numerals_le line.1
    rw [← length_readLine hline] at hle
    rw [List.flatten_cons, List.length_append, List.map_cons, List.sum_cons, Function.comp_apply]
    omega

theorem two_mul_size_le_of_parse {text : String} {g : Grid} (h : parse text = .ok g) : 2 * g.size ≤ text.length := by
  obtain ⟨header, body, hlines, -, hrows, -⟩ := ofLines_eq_ok_iff.mp h
  have hcells := two_mul_length_flatten_le hrows
  have htext := sum_length_lines_le text.toList
  have htake : ((body.take g.height).map fun line => line.length + 1).sum ≤
      (body.map fun line => line.length + 1).sum := by
    apply List.Sublist.sum_le_sum
    · exact (List.take_sublist g.height body).map _
    · intro n _
      exact Nat.zero_le n
  rw [hlines, List.map_cons, List.sum_cons, String.length_toList] at htext
  rw [length_flatten_rows] at hcells
  omega

end Grid

end Downhill
