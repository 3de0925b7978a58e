import Downhill.Proofs.Rendering
import Downhill.Proofs.Rows
import Mathlib.Algebra.Group.Action.Defs
import Mathlib.Algebra.Order.BigOperators.Group.List
import Mathlib.Algebra.Order.Group.Nat

/-!
# The text of a grid

A grid is written with a blank before each integer and a newline after each line. A first line can say widths and
heights below 2 ^ 63, and a grid of such a size is what its text is read as.

* `parse_text`           : the text of a grid is read as the grid;
* `utf8ByteSize_text_le` : a bound on the size of the text.
-/

namespace Downhill

namespace Text

/-- An integer as it is usually written, with a blank before it. -/
def Item.ofInt (n : Int) : Item :=
  ⟨[' '], decide (n < 0), 0, n.natAbs⟩

private theorem Item.value_ofInt (n : Int) : (ofInt n).spelling.value = n := by
  show (if decide (n < 0) = true then -(n.natAbs : Int) else n.natAbs) = n
  by_cases hn : n < 0
  · rw [if_pos (decide_eq_true hn)]
    omega
  · rw [if_neg (by simpa using hn)]
    omega

private theorem Item.before_ofInt (n : Int) : (ofInt n).before = [' '] := rfl

/-- A line of integers, each with a blank before it. -/
def WrittenLine.ofInts (row : List Int) : WrittenLine where
  items := row.map Item.ofInt
  ending := []
  filler_before item hitem := by
    obtain ⟨n, _, rfl⟩ := List.mem_map.mp hitem
    rw [Item.before_ofInt]
    decide
  filler_ending := by decide
  unsigned item hitem := by
    obtain ⟨n, _, rfl⟩ := List.mem_map.mp hitem
    rw [Item.before_ofInt]
    exact .inr (by decide)
  apart item hitem := by
    obtain ⟨n, _, rfl⟩ := List.mem_map.mp (List.mem_of_mem_tail hitem)
    exact .inr (List.cons_ne_nil ' ' [])

private theorem WrittenLine.values_ofInts (row : List Int) : (ofInts row).values = row := by
  unfold ofInts values
  rw [List.map_map]
  exact (List.map_congr_left fun n _ => Item.value_ofInt n).trans (List.map_id row)

/-- Lines that each end in a newline are laid out in their text. -/
private theorem laid_flatMap (lines : List (List Char)) : Laid lines (lines.flatMap fun line => line ++ ['\n']) := by
  induction lines with
  | nil => exact .nil
  | cons line lines ih =>
    rw [List.flatMap_cons, List.append_assoc]
    exact .newline ih

/-! ### Sizes -/

/-- A blank, a sign and as many digits as a 64-bit integer may have. -/
private theorem Item.length_text_ofInt_le {n : Int} (h : n.natAbs ≤ 2 ^ 63) : (ofInt n).text.length ≤ 21 := by
  have hdigits : (Nat.toDigits 10 n.natAbs).length ≤ 19 :=
    (Nat.length_toDigits_le_iff (by decide) (by decide)).mpr (by omega)
  unfold ofInt text Spelling.text Spelling.digits
  split <;> simp <;> omega

private theorem length_flatMap_le {α : Type} {f : α → List Char} {l : List α} {k : Nat}
    (h : ∀ a ∈ l, (f a).length ≤ k) : (l.flatMap f).length ≤ l.length * k := by
  have hsum := List.sum_le_card_nsmul (l.map fun a => (f a).length) k (by
    intro n hn
    obtain ⟨a, ha, rfl⟩ := List.mem_map.mp hn
    exact h a ha)
  rwa [List.length_map, smul_eq_mul, ← List.length_flatMap] at hsum

private theorem WrittenLine.length_text_ofInts_le (row : List Int) (h : ∀ n ∈ row, n.natAbs ≤ 2 ^ 63) :
    (ofInts row).text.length ≤ row.length * 21 := by
  have hitems : ∀ item ∈ row.map Item.ofInt, item.text.length ≤ 21 := by
    intro item hitem
    obtain ⟨n, hn, rfl⟩ := List.mem_map.mp hitem
    exact Item.length_text_ofInt_le (h n hn)
  have hlength := length_flatMap_le hitems
  rwa [List.length_map, ← List.append_nil (List.flatMap _ _)] at hlength

/-- A character is at most four bytes long. -/
private theorem utf8ByteSize_le (text : String) : text.utf8ByteSize ≤ 4 * text.length := by
  obtain ⟨l, rfl⟩ := text.exists_eq_ofList
  rw [String.length_ofList]
  induction l with
  | nil => exact Nat.le_refl _
  | cons c l ih =>
    have hchar := c.utf8Size_le_four
    rw [← List.singleton_append, String.ofList_append, String.utf8ByteSize_append, ← String.singleton_eq_ofList,
      String.utf8ByteSize_singleton, List.singleton_append, List.length_cons]
    omega

end Text

namespace Grid

open Text

/-- The lines of a grid: its width and height, and its rows. -/
def writtenLines (g : Grid) : List WrittenLine :=
  .ofInts [g.width, g.height] :: g.rows.map fun row => .ofInts (row.map Int64.toInt)

/-- A text of a grid. -/
def text (g : Grid) : String :=
  String.ofList ((g.writtenLines.map WrittenLine.text).flatMap fun line => line ++ ['\n'])

theorem parse_text {g : Grid} (hw : g.width < 2 ^ 63) (hh : g.height < 2 ^ 63) : parse g.text = .ok g := by
  have hread := forall₂_lines (laid_flatMap (g.writtenLines.map WrittenLine.text)) (by
    intro line hline
    obtain ⟨line, _, rfl⟩ := List.mem_map.mp hline
    exact newline_not_mem_text line)
  rw [writtenLines, List.map_cons, List.forall₂_cons_left_iff] at hread
  obtain ⟨header, body, hheader, hbody, hlines⟩ := hread
  have hsize : (WrittenLine.ofInts [g.width, g.height]).values =
      (g.width : Int) :: (g.height : Int) :: ([] : List Int64).map Int64.toInt := WrittenLine.values_ofInts _
  have hrows : (g.rows.map fun row => WrittenLine.ofInts (row.map Int64.toInt)).map WrittenLine.values =
      g.rows.map fun row => row.map Int64.toInt := by
    rw [List.map_map]
    exact List.map_congr_left fun row _ => WrittenLine.values_ofInts _
  have hlength : body.length = g.height := by
    rw [← hbody.length_eq, List.length_map, List.length_map, length_rows]
  rw [parse, text, String.toList_ofList, writtenLines, List.map_cons, hlines]
  apply ofLines_eq_ok_iff.mpr
  refine ⟨header, body, rfl, readHeader_of_readAs hheader hw hh hsize, ?_, ?_⟩
  · rw [List.take_of_length_le (Nat.le_of_eq hlength)]
    exact readRows_of_forall₂ hbody hrows
  · rw [List.drop_of_length_le (Nat.le_of_eq hlength)]
    exact List.forall_mem_nil _

private theorem natAbs_toInt_le (w : Int64) : w.toInt.natAbs ≤ 2 ^ 63 := by
  have hle := Int64.minValue_le_toInt w
  have hge := Int64.toInt_le w
  simp only [Int64.toInt_maxValue, Int64.toInt_minValue] at hle hge
  omega

private theorem length_text_le {g : Grid} (hw : g.width < 2 ^ 63) (hh : g.height < 2 ^ 63) {line : WrittenLine}
    (hline : line ∈ g.writtenLines) : line.text.length ≤ (g.width + 1) * 21 := by
  rcases List.mem_cons.mp hline with rfl | hrow
  · have hlength := WrittenLine.length_text_ofInts_le [(g.width : Int), (g.height : Int)] (by
      simp only [List.forall_mem_cons]
      exact ⟨by omega, by omega, List.forall_mem_nil _⟩)
    exact hlength.trans (Nat.mul_le_mul_right 21 (Nat.succ_le_succ g.width_pos))
  · obtain ⟨row, hmem, rfl⟩ := List.mem_map.mp hrow
    have hlength := WrittenLine.length_text_ofInts_le (row.map Int64.toInt) (by
      intro n hn
      obtain ⟨w, _, rfl⟩ := List.mem_map.mp hn
      exact natAbs_toInt_le w)
    rw [List.length_map, length_of_mem_rows hmem] at hlength
    omega

theorem utf8ByteSize_text_le {g : Grid} (hw : g.width < 2 ^ 63) (hh : g.height < 2 ^ 63) :
    g.text.utf8ByteSize ≤ 4 * ((g.height + 1) * ((g.width + 1) * 21 + 1)) := by
  have hlines : ∀ line ∈ g.writtenLines, (line.text ++ ['\n']).length ≤ (g.width + 1) * 21 + 1 := by
    intro line hline
    rw [List.length_append]
    exact Nat.succ_le_succ (length_text_le hw hh hline)
  have hlength := length_flatMap_le hlines
  rw [writtenLines, List.length_cons, List.length_map, length_rows, ← writtenLines] at hlength
  apply (utf8ByteSize_le g.text).trans
  rw [text, String.length_ofList, List.flatMap_map]
  exact Nat.mul_le_mul_left 4 hlength

end Grid

end Downhill
