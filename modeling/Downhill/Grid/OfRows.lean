import Downhill.Grid.Basic
import Downhill.Grid.Error

/-!
# Grids from rows

Rows make a grid if there are as many as its height says and each is as long as its width says. Of several faults
the first of these is reported: a width or height of zero, a size beyond 64 bits, the first row of a wrong length
among the rows that the height asks for, a wrong number of rows.

One pass over the rows finds the last two of these out (`gather`). It stops at a row of a wrong length and otherwise
collects the elevations.
-/

namespace Downhill.Grid

/-- The position and length of the first row that is not `width` long. -/
def misfit? (width : Nat) (rows : List (List Int64)) : Option (Nat × Nat) :=
  (rows.zipIdx.find? fun row => row.1.length != width).map fun row => (row.2, row.1.length)

theorem misfit?_eq_none_iff {width : Nat} {rows : List (List Int64)} :
    misfit? width rows = none ↔ ∀ row ∈ rows, row.length = width := by
  simp only [misfit?, Option.map_eq_none_iff, List.find?_eq_none, bne_iff_ne, ne_eq, Decidable.not_not]
  constructor
  · intro h row hrow
    obtain ⟨i, hi, rfl⟩ := List.getElem_of_mem hrow
    exact h (rows[i], i) (List.mk_mem_zipIdx_iff_getElem?.mpr (List.getElem?_eq_getElem hi))
  · rintro h ⟨row, i⟩ hrow
    exact h row (List.mem_of_getElem? (List.mk_mem_zipIdx_iff_getElem?.mp hrow))

/-- As many rows as `height`, each as long as `width`, have `width * height` elevations. -/
private theorem length_flatten {width height : Nat} {rows : List (List Int64)}
    (hm : misfit? width (rows.take height) = none)
    (hr : rows.length = height) : rows.flatten.length = width * height := by
  rw [List.take_of_length_le (by omega), misfit?_eq_none_iff] at hm
  have : rows.map List.length = List.replicate height width := by
    rw [← hr, List.eq_replicate_iff]
    refine ⟨by simp, fun n hn => ?_⟩
    obtain ⟨row, hrow, rfl⟩ := List.mem_map.mp hn
    exact hm row hrow
  rw [List.length_flatten, this, List.sum_replicate_nat, Nat.mul_comm]

/-- The grid of the given size with the given rows. -/
def ofRows (width height : Nat) (rows : List (List Int64)) : Except GridError Grid :=
  if hz : width = 0 ∨ height = 0 then .error (.empty width height)
  else if ha : UInt64.size ≤ width * height then .error (.tooLarge width height)
  else match hm : misfit? width (rows.take height) with
    | some (row, found) => .error (.rowLength row width found)
    | none =>
      if hr : rows.length = height then
        .ok {
          width := width
          height := height
          cells := ⟨rows.flatten.toArray, by simpa using length_flatten hm hr⟩
          width_pos := by omega
          height_pos := by omega
          addressable := by omega }
      else .error (.rowCount height rows.length)

/-- Takes the rows one after another, `found` of which with the elevations `cells` have been taken before. -/
def gather (width height : Nat) : Nat → List Int64 → List (List Int64) → Except GridError (List Int64)
  | found, cells, [] => if found = height then .ok cells else .error (.rowCount height found)
  | found, cells, row :: rest =>
    if found < height then
      if row.length = width then gather width height (found + 1) (cells ++ row) rest
      else .error (.rowLength found width row.length)
    else gather width height (found + 1) cells rest

end Downhill.Grid
