import Downhill.Edge

/-!
# Neighbouring cells

Two cells are neighbours if they stand side by side in a row or one above the other in a column. A scan that looks
from each cell to the left and up meets each pair of neighbours once, at the later of its two cells.

* `left?_node`, `above?_node` : the neighbours by their coordinates.
-/

namespace Downhill.Grid

variable (g : Grid)

/-- The cell to the left, in the same row. -/
def left? (v : g.Node) : Option g.Node :=
  if 0 < (g.x v).val then some ⟨v - 1, by omega⟩ else none

/-- The cell above, in the same column. -/
def above? (v : g.Node) : Option g.Node :=
  if 0 < (g.y v).val then some ⟨v - g.width, by omega⟩ else none

/-- The edges between a cell and its neighbours to the left and above, in this order. -/
def edgesBack (v : g.Node) : List (Edge g) :=
  ((g.left? v).bind (Edge.between? v)).toList ++ ((g.above? v).bind (Edge.between? v)).toList

/-- The edges between neighbouring cells, in the order of a scan from the first cell to the last. -/
def edges : List (Edge g) :=
  g.nodes.flatMap g.edgesBack

/-! ### Neighbours by their coordinates -/

variable {g}

theorem left?_node {x : Nat} (hx : x + 1 < g.width) (y : Fin g.height) :
    g.left? (g.node ⟨x + 1, hx⟩ y) = some (g.node ⟨x, by omega⟩ y) := by
  rw [left?, x_node, if_pos (Nat.succ_pos x)]
  rfl

/-- The first cell of a row has none to the left. -/
theorem left?_node_zero (y : Fin g.height) : g.left? (g.node ⟨0, g.width_pos⟩ y) = none := by
  rw [left?, x_node, if_neg (Nat.lt_irrefl 0)]

theorem above?_node (x : Fin g.width) {y : Nat} (hy : y + 1 < g.height) :
    g.above? (g.node x ⟨y + 1, hy⟩) = some (g.node x ⟨y, by omega⟩) := by
  rw [above?, y_node, if_pos (Nat.succ_pos y), Option.some.injEq]
  apply Fin.ext
  simp only [node, Nat.succ_mul]
  omega

/-- The first cell of a column has none above. -/
theorem above?_node_zero (x : Fin g.width) : g.above? (g.node x ⟨0, g.height_pos⟩) = none := by
  rw [above?, y_node, if_neg (Nat.lt_irrefl 0)]

end Downhill.Grid
