import Downhill.Table

/-!
# Grids of elevations

A grid is a rectangle of signed 64-bit elevations, at least one cell wide and high, with fewer cells than there are
64-bit words. Its cells are numbered row by row from the top and from left to right in a row, and a node of a grid is
the number of one of its cells.

* `x_node`, `y_node`, `node_x_y` : nodes and pairs of coordinates correspond;
* `cell_ofFn`                    : a grid made from a function has the function's values;
* `ext_cell`                     : two grids of one size with the same cells are equal.
-/

namespace Downhill

/-- A rectangle of elevations. -/
structure Grid where
  width : Nat
  height : Nat
  cells : Table Int64 (width * height)
  width_pos : 0 < width
  height_pos : 0 < height
  addressable : width * height < UInt64.size
deriving DecidableEq

namespace Grid

/-- The number of cells. -/
abbrev size (g : Grid) : Nat := g.width * g.height

/-- The number of a cell. -/
abbrev Node (g : Grid) : Type := Fin g.size

/-! ### Coordinates -/

/-- The cell in column `x` of row `y` has a number below the number of cells. -/
theorem index_lt {width height x y : Nat} (hx : x < width) (hy : y < height) : y * width + x < width * height :=
  calc y * width + x < y * width + width := by omega
    _ = (y + 1) * width := by rw [Nat.succ_mul]
    _ ≤ height * width := Nat.mul_le_mul_right _ hy
    _ = width * height := Nat.mul_comm _ _

/-- The row of a cell number. -/
private theorem div_lt {width height i : Nat} (h : i < width * height) : i / width < height :=
  Nat.div_lt_of_lt_mul h

variable (g : Grid)

/-- The cell in column `x` of row `y`. -/
def node (x : Fin g.width) (y : Fin g.height) : g.Node :=
  ⟨y * g.width + x, index_lt x.isLt y.isLt⟩

/-- The cell in column `x` of row `y`, if the grid has it. -/
def node? (x y : Nat) : Option g.Node :=
  if h : x < g.width ∧ y < g.height then some (g.node ⟨x, h.1⟩ ⟨y, h.2⟩) else none

/-- The cell with the given number, if the grid has it. -/
def nodeOfNat? (i : Nat) : Option g.Node :=
  if h : i < g.size then some ⟨i, h⟩ else none

/-- The column of a cell. -/
def x (v : g.Node) : Fin g.width :=
  ⟨v % g.width, Nat.mod_lt _ g.width_pos⟩

/-- The row of a cell. -/
def y (v : g.Node) : Fin g.height :=
  ⟨v / g.width, div_lt v.isLt⟩

/-- All nodes in ascending order. -/
def nodes : List g.Node :=
  List.finRange g.size

/-- The elevation of a cell, as an exact integer. -/
def elevation (v : g.Node) : Int :=
  (g.cells.get v).toInt

/-- The elevation in column `x` of row `y`, as it is stored. -/
def cell (x : Fin g.width) (y : Fin g.height) : Int64 :=
  g.cells.get (g.node x y)

/-- The elevation in column `x` of row `y`, if the grid has that cell. -/
def elevation? (x y : Nat) : Option Int64 :=
  if h : x < g.width ∧ y < g.height then some (g.cell ⟨x, h.1⟩ ⟨y, h.2⟩) else none

/-- The elevations of a row, from left to right. -/
def row (y : Fin g.height) : List Int64 :=
  List.ofFn fun x => g.cell x y

/-- The elevations of row `y`, if the grid has it. -/
def row? (y : Nat) : Option (List Int64) :=
  if h : y < g.height then some (g.row ⟨y, h⟩) else none

/-- All rows, from the top. -/
def rows : List (List Int64) :=
  List.ofFn g.row

/-- The grid with the given elevation in each column of each row. -/
def ofFn (width height : Nat) (width_pos : 0 < width) (height_pos : 0 < height)
    (addressable : width * height < UInt64.size) (f : Fin width → Fin height → Int64) : Grid where
  width := width
  height := height
  cells := Vector.ofFn fun i => f ⟨i % width, Nat.mod_lt _ width_pos⟩ ⟨i / width, div_lt i.isLt⟩
  width_pos := width_pos
  height_pos := height_pos
  addressable := addressable

/-! ### Nodes and coordinates correspond -/

variable {g}

theorem x_node (x : Fin g.width) (y : Fin g.height) : g.x (g.node x y) = x := by
  apply Fin.ext
  simp [Grid.x, node, Nat.mod_eq_of_lt x.isLt]

theorem y_node (x : Fin g.width) (y : Fin g.height) : g.y (g.node x y) = y := by
  apply Fin.ext
  have := g.width_pos
  simp only [Grid.y, node]
  rw [Nat.mul_comm, Nat.mul_add_div this, Nat.div_eq_of_lt x.isLt, Nat.add_zero]

theorem node_x_y (v : g.Node) : g.node (g.x v) (g.y v) = v := by
  apply Fin.ext
  simp only [node, Grid.x, Grid.y]
  rw [Nat.mul_comm]
  exact Nat.div_add_mod _ _

theorem elevation_node (x : Fin g.width) (y : Fin g.height) : g.elevation (g.node x y) = (g.cell x y).toInt := rfl

theorem mem_nodes (v : g.Node) : v ∈ g.nodes :=
  List.mem_finRange v

theorem nodeOfNat?_val (v : g.Node) : g.nodeOfNat? v = some v :=
  dif_pos v.isLt

theorem size_lt (g : Grid) : g.size < UInt64.size :=
  g.addressable

/-! ### Grids from functions -/

theorem cell_ofFn {width height : Nat} (hw : 0 < width) (hh : 0 < height) (ha : width * height < UInt64.size)
    (f : Fin width → Fin height → Int64) (x : Fin width) (y : Fin height) :
    (ofFn width height hw hh ha f).cell x y = f x y := by
  have hx := x_node (g := ofFn width height hw hh ha f) x y
  have hy := y_node (g := ofFn width height hw hh ha f) x y
  exact (Table.get_ofFn _ _).trans (congr (congrArg f hx) hy)

/-- The stored elevation of a cell, by its coordinates. -/
theorem get_cells (v : g.Node) : g.cells.get v = g.cell (g.x v) (g.y v) := by
  rw [cell, node_x_y]

/-- Two grids of one size with the same elevation in each column of each row are equal. -/
theorem ext_cell {g h : Grid} (hw : g.width = h.width) (hh : g.height = h.height)
    (hc : ∀ (x : Fin g.width) (y : Fin g.height), g.cell x y = h.cell (x.cast hw) (y.cast hh)) : g = h := by
  obtain ⟨w, k, c, _, _, _⟩ := g
  obtain ⟨w', k', c', _, _, _⟩ := h
  simp only at hw hh
  subst hw hh
  congr
  apply Table.ext_get
  intro v
  exact (get_cells (g := Grid.mk ..) v).trans ((hc _ _).trans (get_cells (g := Grid.mk ..) v).symm)

end Grid

end Downhill
