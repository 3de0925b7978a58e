import Downhill.Checked.Terrain
import Downhill.Report.Basic

/-!
# Reports with every check made

A report is put together with the same checks as the operations on terrains: edges and summits are counted in words,
and the coordinates of a cell are computed from its number.
-/

namespace Downhill.Checked

variable {g : Grid}

/-- The levels below a level, one for each of the given numbers of steps, up to the first empty one. -/
def levelsBelow (t : Terrain g) (length : Nat) : List Nat → List g.Node → Option (List (List g.Node))
  | [], _ => some []
  | steps :: rest, level => do
    let left ← sub length steps
    match t.nextLevel left level with
    | [] => return [[]]
    | v :: vs => return (v :: vs) :: (← levelsBelow t length rest (v :: vs))

/-- Follows the descents of the given length from a cell. -/
def trace (t : Terrain g) (summit : g.Node) (length : Nat) (withLevels : Bool) : Option (Trace g) := do
  let levels ← levelsBelow t length (List.range' 1 length) [summit]
  let lowest := g.lowest summit levels.flatten
  return {
    summit := summit
    length := length
    lowest := lowest
    drop := (g.elevation summit - lowest).toNat
    levels := if withLevels then levels else [] }

/-- Counts one more thing of the given length. -/
def tally (length : Nat) : List (Nat × Nat) → Option (List (Nat × Nat))
  | [] => some [(length, 1)]
  | (other, count) :: rest =>
    if other < length then some ((length, 1) :: (other, count) :: rest)
    else if other = length then (add count 1).map fun count => (other, count) :: rest
    else (tally length rest).map fun rest => (other, count) :: rest

/-- How many summits there are for each length of their longest descent. -/
def histogram (t : Terrain g) : Option (List (Nat × Nat)) :=
  t.summitLengths.foldrM tally []

/-- A cell of a grid with its place and elevation. -/
def cell (g : Grid) (v : g.Node) : Option Cell := do
  return { x := ← mod v g.width, y := ← div v g.width, elevation := g.elevation v }

/-- The peak that a trace starts from. -/
def peak (trace : Trace g) : Option Peak := do
  return {
    cell := ← cell g trace.summit
    drop := trace.drop
    lowest := trace.lowest
    levels := ← trace.levels.mapM fun level => level.mapM (cell g) }

/-- Reports on a terrain. -/
def report (t : Terrain g) (alternatives : Nat) (withLevels : Bool) : Option Report := do
  let longest := t.maxLength?.getD 0
  let traces ← (t.peaks none).mapM fun v => trace t v longest withLevels
  let best := Trace.deepest? traces
  let histogram ← histogram t
  return {
    width := g.width
    height := g.height
    nodes := g.size
    edges := ← edgeCount t
    summits := t.summits.length
    longest := longest
    maxDrop := (best.map Trace.drop).getD 0
    bestPeak := ← best.mapM fun trace => cell g trace.summit
    peaks := ← traces.mapM peak
    alternatives := (shorterLengths longest alternatives).map fun length =>
      { length := length, summits := (histogram.lookup length).getD 0 } }

end Downhill.Checked
