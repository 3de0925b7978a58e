import Downhill.Grid.Basic

/-!
# Mirrored and transposed grids

* `cell_mirrored`, `cell_transposed` : where the elevation of a cell comes from.
-/

namespace Downhill.Grid

/-- The same terrain with left and right exchanged. -/
def mirrored (g : Grid) : Grid :=
  ofFn g.width g.height g.width_pos g.height_pos g.addressable fun x y => g.cell x.rev y

/-- The same terrain with rows and columns exchanged. -/
def transposed (g : Grid) : Grid :=
  ofFn g.height g.width g.height_pos g.width_pos (Nat.mul_comm .. ▸ g.addressable) fun x y => g.cell y x

theorem cell_mirrored (g : Grid) (x : Fin g.width) (y : Fin g.height) : g.mirrored.cell x y = g.cell x.rev y :=
  cell_ofFn g.width_pos g.height_pos g.addressable _ x y

theorem cell_transposed (g : Grid) (x : Fin g.height) (y : Fin g.width) : g.transposed.cell x y = g.cell y x :=
  cell_ofFn g.height_pos g.width_pos (Nat.mul_comm .. ▸ g.addressable) _ x y

end Downhill.Grid
