import Downhill.Grid.Neighbour
import Downhill.Terrain.Insert

/-!
# The terrain of a grid

The terrain of a grid has an edge for each pair of neighbouring cells of different elevation, recorded in the order
of a scan of the grid.
-/

namespace Downhill.Terrain

/-- The descents between the neighbouring cells of a grid. -/
def build (g : Grid) : Terrain g :=
  (bare g).insertAll g.edges

end Downhill.Terrain
