import Downhill.Edge

/-!
# Terrains

A terrain is what is known of the descents over a grid: for each cell the cells it descends to and the cells that
descend to it, each list in the order in which the edges were recorded and with an entry for each edge, the length
of its longest descent, and whether it is a summit. The type holds any such data; that the data agree with each
other is what the operations keep up.
-/

namespace Downhill

/-- What is known of the descents over a grid. -/
structure Terrain (g : Grid) where
  /-- The lower ends of the edges from each cell. -/
  down : Table (List g.Node) g.size
  /-- The upper ends of the edges to each cell. -/
  up : Table (List g.Node) g.size
  /-- The number of edges of the longest descent from each cell. -/
  longest : Table Nat g.size
  /-- Whether each cell is in the set of summits. -/
  summit : Table Bool g.size
deriving DecidableEq

namespace Terrain

variable {g : Grid}

/-- The terrain without edges. -/
def bare (g : Grid) : Terrain g where
  down := .constant g.size []
  up := .constant g.size []
  longest := .constant g.size 0
  summit := .constant g.size false

/-- The number of edges, counted as often as recorded. -/
def edgeCount (t : Terrain g) : Nat :=
  (g.nodes.flatMap fun v => t.down.get v).length

/-- The summits in ascending order. -/
def summits (t : Terrain g) : List g.Node :=
  g.nodes.filter fun v => t.summit.get v

/-- The cells without an edge down, in ascending order. -/
def sinks (t : Terrain g) : List g.Node :=
  g.nodes.filter fun v => (t.down.get v).isEmpty

/-- Whether a number is that of a summit. -/
def isSummit (t : Terrain g) (i : Nat) : Bool :=
  match g.nodeOfNat? i with
  | some v => t.summit.get v
  | none => false

/-! ### The terrain without edges -/

@[simp] theorem down_bare (v : g.Node) : (bare g).down.get v = [] := by simp [bare]

@[simp] theorem up_bare (v : g.Node) : (bare g).up.get v = [] := by simp [bare]

@[simp] theorem longest_bare (v : g.Node) : (bare g).longest.get v = 0 := by simp [bare]

@[simp] theorem summit_bare (v : g.Node) : (bare g).summit.get v = false := by simp [bare]

theorem mem_summits {t : Terrain g} {v : g.Node} : v ∈ t.summits ↔ t.summit.get v = true := by
  simp [summits, Grid.nodes]

theorem mem_sinks {t : Terrain g} {v : g.Node} : v ∈ t.sinks ↔ t.down.get v = [] := by
  simp [sinks, Grid.nodes]

end Terrain

end Downhill
