import Downhill.Terrain.Drop
import Downhill.Terrain.Peaks

/-!
# Reports on a terrain

A report gives the size of the terrain, the length of its longest descents, the cells from which they start with the
drop from each, and how many summits have a longest descent that is a little shorter.
-/

namespace Downhill

/-- A cell as it is reported. -/
structure Cell where
  x : Nat
  y : Nat
  elevation : Int
deriving DecidableEq

/-- A summit from which the terrain's longest descents start. -/
structure Peak where
  cell : Cell
  drop : Nat
  /-- The lowest elevation that the longest descents from the peak reach. -/
  lowest : Int
  /-- The cells of each level below the peak, if they were asked for. -/
  levels : List (List Cell)
deriving DecidableEq

/-- How many summits have a longest descent of a given length. -/
structure LengthCount where
  length : Nat
  summits : Nat
deriving DecidableEq

/-- A report on a terrain. -/
structure Report where
  width : Nat
  height : Nat
  nodes : Nat
  edges : Nat
  summits : Nat
  /-- The number of edges of the longest descents, 0 without a summit. -/
  longest : Nat
  /-- The greatest drop of a longest descent, 0 without a summit. -/
  maxDrop : Nat
  /-- The first peak with the greatest drop. -/
  bestPeak : Option Cell
  peaks : List Peak
  /-- The counts for the next shorter lengths. -/
  alternatives : List LengthCount
deriving DecidableEq

/-- A cell of a grid with its place and elevation. -/
def Cell.ofNode (g : Grid) (v : g.Node) : Cell where
  x := g.x v
  y := g.y v
  elevation := g.elevation v

/-- The peak that a trace starts from. -/
def Peak.ofTrace {g : Grid} (trace : Trace g) : Peak where
  cell := .ofNode g trace.summit
  drop := trace.drop
  lowest := trace.lowest
  levels := trace.levels.map fun level => level.map (Cell.ofNode g)

/-- The lengths below `longest`, the longest first and 1 last, at most as many as said. -/
def shorterLengths (longest limit : Nat) : List Nat :=
  (List.range' 1 (longest - 1)).reverse.take limit

/-- Reports on a terrain, with the given number of shorter lengths at most, and with the levels below each peak if
they are asked for. -/
def Terrain.report {g : Grid} (t : Terrain g) (alternatives : Nat) (withLevels : Bool) : Report :=
  let longest := t.maxLength?.getD 0
  let traces := (t.peaks none).map fun v => t.trace v longest withLevels
  let best := Trace.deepest? traces
  let histogram := t.histogram
  { width := g.width
    height := g.height
    nodes := g.size
    edges := t.edgeCount
    summits := t.summits.length
    longest := longest
    maxDrop := (best.map Trace.drop).getD 0
    bestPeak := best.map fun trace => .ofNode g trace.summit
    peaks := traces.map Peak.ofTrace
    alternatives := (shorterLengths longest alternatives).map fun length =>
      { length := length, summits := (histogram.lookup length).getD 0 } }

end Downhill
