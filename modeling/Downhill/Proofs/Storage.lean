import Downhill.Checked.Storage
import Downhill.Proofs.RowFaults
import Mathlib.Algebra.BigOperators.Group.List.Lemmas
import Mathlib.Data.List.FinRange

/-!
# What is read from storage

A grid of a positive width and height with as many elevations as the two say, fewer than there are addresses, can be
read in every way: by the address of a cell, by the addresses of a row, and piece by piece. All agree, and a reading
outside the grid has no result. To mirror or to transpose what is stored leaves a grid, so this holds after any number
of reshapings. Two mirrorings undo each other, as do two transpositions; to mirror and then to transpose turns a grid
by a quarter, so four such turns undo each other.

* `elevation_storage`, `row_storage`, `rows_storage` : readings;
* `mirrored_storage`, `transposed_storage`           : reshapings;
* `sound_storage`                                    : what is read from a grid, before and after it is reshaped;
* `reshape_storage`                                  : any number of reshapings.
-/

namespace Downhill

open Checked

namespace Storage

/-- What is stored is a grid. It is rectangular, all readings agree and have a result just inside the grid, its rows
make it again, and reshaped it has each elevation at the new place and comes back to itself. -/
structure Sound (s : Storage) : Prop where
  width_pos : 1 ≤ s.width
  height_pos : 1 ≤ s.height
  length_cells : s.cells.length = s.width * s.height
  size_le : s.width * s.height ≤ 2 ^ 64 - 1
  elevation_eq_none_iff (x y : Nat) : s.elevation x y = none ↔ s.width ≤ x ∨ s.height ≤ y
  row_eq_none_iff (y : Nat) : s.row y = none ↔ s.height ≤ y
  exists_rows : ∃ rows, s.rows = some rows ∧ rows.length = s.height ∧ (∀ row ∈ rows, row.length = s.width) ∧
    (∀ y, rows[y]? = s.row y) ∧ (∀ x y, (s.row y).bind (·[x]?) = s.elevation x y) ∧
    ofRows s.width s.height rows = .ok s
  exists_mirrored : ∃ m, s.mirrored = some m ∧ m.width = s.width ∧ m.height = s.height ∧
    (∀ x y, x < s.width → m.elevation x y = s.elevation (s.width - 1 - x) y) ∧ m.mirrored = some s
  exists_transposed : ∃ t, s.transposed = some t ∧ t.width = s.height ∧ t.height = s.width ∧
    (∀ x y, t.elevation x y = s.elevation y x) ∧ t.transposed = some s
  four_turns : s.reshape (List.replicate 4 [.mirror, .transpose]).flatten = some s

/-! ### Rows of one length -/

variable {rows : List (List Int64)} {width : Nat}

private theorem sum_take_map_length (h : ∀ row ∈ rows, row.length = width) {y : Nat} (hy : y ≤ rows.length) :
    ((rows.map List.length).take y).sum = y * width := by
  rw [List.map_eq_replicate_iff.mpr h, List.take_replicate, Nat.min_eq_left hy, List.sum_replicate_nat]

/-- Among joined rows a row stands between the address of its first cell and that of the next row's. -/
private theorem drop_take_flatten (h : ∀ row ∈ rows, row.length = width) {y : Nat} (hy : y < rows.length) :
    (rows.flatten.take ((y + 1) * width)).drop (y * width) = rows[y] := by
  have hrow := List.drop_take_succ_flatten_eq_getElem rows y hy
  rwa [sum_take_map_length h (Nat.le_of_lt hy), sum_take_map_length h hy] at hrow

private theorem pieces_flatten (h : ∀ row ∈ rows, row.length = width) :
    pieces width rows.length rows.flatten = rows := by
  induction rows with
  | nil => rfl
  | cons row rows ih =>
    obtain ⟨hrow, hrows⟩ := List.forall_mem_cons.mp h
    rw [List.length_cons, pieces, List.flatten_cons, List.take_left' hrow, List.drop_left' hrow, ih hrows]

end Storage

namespace Grid

variable (g : Grid)

/-- What is stored of the grid is read as the grid. Its own rows make it, and what undoes itself gives it back. -/
structure IsStored : Prop where
  sound : g.storage.Sound
  elevation_eq (x y : Nat) : g.storage.elevation x y = g.elevation? x y
  row_eq (y : Nat) : g.storage.row y = g.row? y
  rows_eq : g.storage.rows = some g.rows
  ofRows_rows : ofRows g.width g.height g.rows = .ok g
  mirrored_twice : g.mirrored.mirrored = g
  transposed_twice : g.transposed.transposed = g
  turned_four_times : g.reshape (List.replicate 4 [.mirror, .transpose]).flatten = g

/-! ### Readings -/

private theorem getElem?_cells (x : Fin g.width) (y : Fin g.height) :
    g.cells.toList[y * g.width + x]? = some (g.cell x y) := by
  rw [List.getElem?_eq_getElem (by rw [Vector.length_toList]; exact (g.node x y).isLt)]
  rfl

theorem elevation_storage (x y : Nat) : g.storage.elevation x y = g.elevation? x y := by
  unfold Storage.elevation elevation?
  show (if x < g.width ∧ y < g.height then _ else _) = _
  by_cases hxy : x < g.width ∧ y < g.height
  · have hlt : y * g.width + x < UInt64.size := Nat.lt_trans (index_lt hxy.1 hxy.2) g.addressable
    rw [if_pos hxy, dif_pos hxy]
    show (do g.cells.toList[← add (← mul y g.width) x]?) = _
    rw [mul_eq_some (by omega), Option.bind_eq_bind, Option.bind_some, add_eq_some hlt]
    exact g.getElem?_cells ⟨x, hxy.1⟩ ⟨y, hxy.2⟩
  · rw [if_neg hxy, dif_neg hxy]

private theorem row_storage_of_lt {y : Nat} (hy : y < g.height) : g.storage.row y = some (g.row ⟨y, hy⟩) := by
  have hlength : g.rows.length = g.height := g.length_rows
  have hstop : (y + 1) * g.width ≤ g.size := by
    rw [Nat.mul_comm]
    exact Nat.mul_le_mul_left _ hy
  have hnext : y + 1 ≤ (y + 1) * g.width := Nat.le_mul_of_pos_right _ g.width_pos
  have hstart : y * g.width ≤ (y + 1) * g.width := Nat.mul_le_mul_right _ (Nat.le_succ y)
  have hsize : g.size < UInt64.size := g.size_lt
  show (do Storage.slice g.cells.toList (← mul y g.width) (← mul (← add y 1) g.width)) = _
  rw [mul_eq_some (by omega), add_eq_some (by omega)]
  simp only [Option.bind_eq_bind, Option.bind_some]
  rw [mul_eq_some (by omega), Option.bind_some, Storage.slice, Vector.length_toList, if_pos ⟨hstart, hstop⟩,
    ← flatten_rows, Storage.drop_take_flatten (fun _ => length_of_mem_rows) (hlength ▸ hy)]
  exact congrArg some (List.getElem_ofFn _)

/-- A word past the last row is no row's number: if the addresses are words at all, the second is past the cells. -/
private theorem row_storage_of_le {y : Nat} (hy : g.height ≤ y) : g.storage.row y = none := by
  have hstop : g.size < (y + 1) * g.width := by
    rw [size, Nat.mul_comm]
    exact Nat.mul_lt_mul_of_pos_right (Nat.lt_succ_of_le hy) g.width_pos
  show (do Storage.slice g.cells.toList (← mul y g.width) (← mul (← add y 1) g.width)) = _
  simp only [Option.bind_eq_bind, Option.bind_eq_none_iff, add, mul, word?, Option.ite_none_right_eq_some,
    Option.some.injEq]
  rintro start ⟨-, rfl⟩ next ⟨-, rfl⟩ stop ⟨-, rfl⟩
  rw [Storage.slice, Vector.length_toList]
  exact if_neg fun hrange => Nat.not_lt.mpr hrange.2 hstop

theorem row_storage (y : Nat) : g.storage.row y = g.row? y := by
  unfold row?
  by_cases hy : y < g.height
  · rw [dif_pos hy, row_storage_of_lt g hy]
  · rw [dif_neg hy, row_storage_of_le g (by omega)]

theorem rows_storage : g.storage.rows = some g.rows := by
  have hcount : g.cells.toList.length / g.width = g.rows.length := by
    rw [Vector.length_toList, Nat.mul_div_cancel_left _ g.width_pos, length_rows]
  show (do return Storage.pieces g.width (← div g.cells.toList.length g.width) g.cells.toList) = _
  rw [div_eq_some g.width_pos, hcount, ← flatten_rows]
  exact congrArg some (Storage.pieces_flatten fun _ => length_of_mem_rows)

/-! ### Reshapings -/

private theorem row_mirrored (y : Fin g.height) : g.mirrored.row y = (g.row y).reverse := by
  show (List.ofFn fun x : Fin g.width => g.mirrored.cell x y) = (List.ofFn fun x => g.cell x y).reverse
  rw [List.ofFn_eq_map, List.ofFn_eq_map, ← List.map_reverse, List.finRange_reverse, List.map_map]
  exact List.map_congr_left fun x _ => cell_mirrored g x y

private theorem rows_mirrored : g.mirrored.rows = g.rows.map List.reverse := by
  rw [rows, rows, List.map_ofFn]
  exact congrArg List.ofFn (funext (row_mirrored g))

theorem mirrored_storage : g.storage.mirrored = some g.mirrored.storage := by
  rw [Storage.mirrored, rows_storage]
  have hcells : g.rows.flatMap List.reverse = g.mirrored.cells.toList := by
    rw [← flatten_rows, rows_mirrored, List.flatMap_def]
  exact congrArg (fun cells => some (Storage.mk g.width g.height cells)) hcells

private theorem columns_eq (width height : Nat) :
    Storage.columns width height =
      ((List.finRange width).flatMap fun x => (List.finRange height).map fun y => (x, y)).map
        fun place => (place.1.val, place.2.val) := by
  rw [Storage.columns, ← List.map_coe_finRange_eq_range, ← List.map_coe_finRange_eq_range, List.flatMap_map,
    List.map_flatMap]
  simp only [List.map_map]
  rfl

private theorem rows_transposed : g.transposed.rows = List.ofFn fun x => List.ofFn fun y => g.cell x y := by
  rw [rows]
  exact congrArg List.ofFn (funext fun x => congrArg List.ofFn (funext fun y => cell_transposed g y x))

theorem transposed_storage : g.storage.transposed = some g.transposed.storage := by
  have hcell : ((fun place : Nat × Nat => g.storage.elevation place.1 place.2) ∘
      fun place : Fin g.width × Fin g.height => (place.1.val, place.2.val)) =
        fun place => pure (g.cell place.1 place.2) := by
    funext place
    show g.storage.elevation place.1 place.2 = _
    rw [elevation_storage, elevation?, dif_pos ⟨place.1.isLt, place.2.isLt⟩]
    rfl
  have hcells : ((List.finRange g.width).flatMap fun x => (List.finRange g.height).map fun y => (x, y)).map
      (fun place => g.cell place.1 place.2) = g.transposed.cells.toList := by
    rw [← flatten_rows, rows_transposed, List.map_flatMap, List.flatMap_def]
    simp only [List.map_map, List.ofFn_eq_map]
    rfl
  show (do return Storage.mk g.height g.width (← (Storage.columns g.width g.height).mapM _)) = _
  rw [columns_eq, List.mapM_map, hcell, List.mapM_pure, hcells]
  rfl

private theorem mirrored_mirrored : g.mirrored.mirrored = g :=
  ext_cell (g := g.mirrored.mirrored) rfl rfl fun x y =>
    calc g.mirrored.mirrored.cell x y = g.mirrored.cell x.rev y := cell_mirrored g.mirrored x y
      _ = g.cell x.rev.rev y := cell_mirrored g x.rev y
      _ = g.cell x y := by rw [Fin.rev_rev]

private theorem transposed_transposed : g.transposed.transposed = g :=
  ext_cell (g := g.transposed.transposed) rfl rfl fun x y =>
    calc g.transposed.transposed.cell x y = g.transposed.cell y x := cell_transposed g.transposed x y
      _ = g.cell x y := cell_transposed g y x

/-- The same terrain turned by half. -/
def turnedHalf : Grid :=
  ofFn g.width g.height g.width_pos g.height_pos g.addressable fun x y => g.cell x.rev y.rev

private theorem cell_turnedHalf (x : Fin g.width) (y : Fin g.height) : g.turnedHalf.cell x y = g.cell x.rev y.rev :=
  cell_ofFn g.width_pos g.height_pos g.addressable _ x y

private theorem cell_turned (x : Fin g.height) (y : Fin g.width) : g.mirrored.transposed.cell x y = g.cell y.rev x :=
  (cell_transposed g.mirrored x y).trans (cell_mirrored g y x)

private theorem turned_turned : g.mirrored.transposed.mirrored.transposed = g.turnedHalf :=
  ext_cell (g := g.mirrored.transposed.mirrored.transposed) (h := g.turnedHalf) rfl rfl fun x y =>
    calc g.mirrored.transposed.mirrored.transposed.cell x y
      _ = g.mirrored.transposed.cell y.rev x := cell_turned g.mirrored.transposed x y
      _ = g.cell x.rev y.rev := cell_turned g y.rev x
      _ = g.turnedHalf.cell x y := (cell_turnedHalf g x y).symm

private theorem turnedHalf_turnedHalf : g.turnedHalf.turnedHalf = g :=
  ext_cell (g := g.turnedHalf.turnedHalf) rfl rfl fun x y =>
    calc g.turnedHalf.turnedHalf.cell x y = g.turnedHalf.cell x.rev y.rev := cell_turnedHalf g.turnedHalf x y
      _ = g.cell x.rev.rev y.rev.rev := cell_turnedHalf g x.rev y.rev
      _ = g.cell x y := by rw [Fin.rev_rev, Fin.rev_rev]

/-- Four quarter turns. -/
private theorem reshape_four_turns : g.reshape (List.replicate 4 [.mirror, .transpose]).flatten = g := by
  show g.mirrored.transposed.mirrored.transposed.mirrored.transposed.mirrored.transposed = g
  rw [turned_turned g, turned_turned, turnedHalf_turnedHalf]

private theorem apply_storage (way : Reshaping) : g.storage.apply way = some (g.apply way).storage :=
  match way with
  | .mirror => mirrored_storage g
  | .transpose => transposed_storage g

theorem reshape_storage (ways : List Reshaping) : g.storage.reshape ways = some (g.reshape ways).storage := by
  induction ways generalizing g with
  | nil => rfl
  | cons way ways ih =>
    have hcons : g.storage.reshape (way :: ways) = (g.storage.apply way).bind fun s => s.reshape ways := rfl
    rw [hcons, apply_storage, Option.bind_some, ih]
    rfl

/-! ### What is stored is a grid -/

private theorem storage_ofRows (width height : Nat) (rows : List (List Int64)) :
    Storage.ofRows width height rows = (ofRows width height rows).map storage := by
  unfold Storage.ofRows
  by_cases hzero : width = 0 ∨ height = 0
  · rw [if_pos hzero, ofRows_eq_error_iff.mpr (.empty hzero)]
    rfl
  · rw [if_neg hzero, mul, word?]
    by_cases hlt : width * height < UInt64.size
    · rw [if_pos hlt]
      show (gather width height 0 [] rows).map (Storage.mk width height) = _
      rw [gather_eq_map_ofRows (isSize_iff.mpr ⟨hzero, Nat.not_le.mpr hlt⟩)]
      rcases hrows : ofRows width height rows with fault | g
      · rfl
      · obtain ⟨rfl, rfl, -⟩ := ofRows_eq_ok_iff.mp hrows
        rfl
    · have hlarge : 2 ^ 64 - 1 < width * height := Nat.lt_of_succ_le (Nat.not_lt.mp hlt)
      rw [if_neg hlt, ofRows_eq_error_iff.mpr (.tooLarge (by omega) (by omega) hlarge)]
      rfl

private theorem elevation?_eq_none_iff (x y : Nat) : g.elevation? x y = none ↔ g.width ≤ x ∨ g.height ≤ y := by
  simp only [elevation?, dite_eq_right_iff, reduceCtorEq, imp_false]
  omega

private theorem row?_eq_none_iff (y : Nat) : g.row? y = none ↔ g.height ≤ y := by
  simp only [row?, dite_eq_right_iff, reduceCtorEq, imp_false, Nat.not_lt]

private theorem getElem?_rows_eq_row? (y : Nat) : g.rows[y]? = g.row? y := by
  rw [rows, List.getElem?_ofFn]
  rfl

private theorem elevation?_of_lt {x y : Nat} (hx : x < g.width) (hy : y < g.height) :
    g.elevation? x y = some (g.cell ⟨x, hx⟩ ⟨y, hy⟩) :=
  dif_pos ⟨hx, hy⟩

private theorem elevation?_mirrored {x : Nat} (hx : x < g.width) (y : Nat) :
    g.mirrored.elevation? x y = g.elevation? (g.width - 1 - x) y := by
  have hx' : g.width - 1 - x < g.width := by omega
  by_cases hy : y < g.height
  · have hrev : (Fin.rev ⟨x, hx⟩ : Fin g.width) = ⟨g.width - 1 - x, hx'⟩ := by
      apply Fin.ext
      rw [Fin.val_rev]
      show g.width - (x + 1) = g.width - 1 - x
      omega
    calc g.mirrored.elevation? x y
      _ = some (g.mirrored.cell ⟨x, hx⟩ ⟨y, hy⟩) := g.mirrored.elevation?_of_lt hx hy
      _ = some (g.cell (Fin.rev ⟨x, hx⟩) ⟨y, hy⟩) := congrArg some (cell_mirrored g ⟨x, hx⟩ ⟨y, hy⟩)
      _ = some (g.cell ⟨g.width - 1 - x, hx'⟩ ⟨y, hy⟩) := by rw [hrev]
      _ = g.elevation? (g.width - 1 - x) y := (g.elevation?_of_lt hx' hy).symm
  · rw [(g.mirrored.elevation?_eq_none_iff x y).mpr (.inr (Nat.not_lt.mp hy)),
      (g.elevation?_eq_none_iff _ y).mpr (.inr (Nat.not_lt.mp hy))]

private theorem elevation?_transposed (x y : Nat) : g.transposed.elevation? x y = g.elevation? y x := by
  by_cases hxy : x < g.height ∧ y < g.width
  · obtain ⟨hx, hy⟩ := hxy
    calc g.transposed.elevation? x y
      _ = some (g.transposed.cell ⟨x, hx⟩ ⟨y, hy⟩) := g.transposed.elevation?_of_lt hx hy
      _ = some (g.cell ⟨y, hy⟩ ⟨x, hx⟩) := congrArg some (cell_transposed g ⟨x, hx⟩ ⟨y, hy⟩)
      _ = g.elevation? y x := (g.elevation?_of_lt hy hx).symm
  · have hout : g.height ≤ x ∨ g.width ≤ y := by omega
    rw [(g.transposed.elevation?_eq_none_iff x y).mpr hout, (g.elevation?_eq_none_iff y x).mpr hout.symm]

theorem sound_storage : g.storage.Sound where
  width_pos := g.width_pos
  height_pos := g.height_pos
  length_cells := Vector.length_toList
  size_le := Nat.le_sub_one_of_lt g.addressable
  elevation_eq_none_iff x y := by
    rw [elevation_storage]
    exact g.elevation?_eq_none_iff x y
  row_eq_none_iff y := by
    rw [row_storage]
    exact g.row?_eq_none_iff y
  exists_rows := by
    refine ⟨g.rows, g.rows_storage, g.length_rows, fun _ => length_of_mem_rows, ?_, ?_, ?_⟩
    · intro y
      rw [getElem?_rows_eq_row?, row_storage]
    · intro x y
      rw [row_storage, ← getElem?_rows_eq_row?, elevation_storage]
      exact g.getElem?_rows x y
    · rw [storage_ofRows]
      exact congrArg (Except.map storage) (ofRows_eq_ok_iff.mpr ⟨rfl, rfl, rfl⟩)
  exists_mirrored := by
    refine ⟨g.mirrored.storage, g.mirrored_storage, rfl, rfl, ?_, ?_⟩
    · intro x y hx
      rw [elevation_storage, elevation_storage]
      exact g.elevation?_mirrored hx y
    · rw [mirrored_storage, mirrored_mirrored]
  exists_transposed := by
    refine ⟨g.transposed.storage, g.transposed_storage, rfl, rfl, ?_, ?_⟩
    · intro x y
      rw [elevation_storage, elevation_storage, elevation?_transposed]
    · rw [transposed_storage, transposed_transposed]
  four_turns := by rw [reshape_storage, reshape_four_turns]

/-- Rows are stored as the grid that they make. A grid that is mirrored and transposed any number of times is reshaped
as it is stored, and read as the grid that the reshapings give. -/
theorem sound_storage_reshape (g : Grid) (ways : List Reshaping) :
    (∀ width height rows, Storage.ofRows width height rows = (ofRows width height rows).map storage) ∧
      g.storage.reshape ways = some (g.reshape ways).storage ∧ (g.reshape ways).IsStored :=
  ⟨storage_ofRows, g.reshape_storage ways, {
    sound := sound_storage _
    elevation_eq := elevation_storage _
    row_eq := row_storage _
    rows_eq := rows_storage _
    ofRows_rows := ofRows_eq_ok_iff.mpr ⟨rfl, rfl, rfl⟩
    mirrored_twice := mirrored_mirrored _
    transposed_twice := transposed_transposed _
    turned_four_times := reshape_four_turns _ }⟩

end Grid

end Downhill
