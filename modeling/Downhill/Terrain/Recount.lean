import Downhill.Terrain.Basic

/-!
# Longest descents recounted

The longest descents can be found from the lists of edges alone, by peeling the terrain from below: a cell is peeled
when all cells below it are. Each cell counts its edges down that are still open; the sinks have none and come
first, a peeled cell closes an edge of each cell above it, and a cell without an open edge left joins the queue.

A recount breaks off when a cell is asked to close more edges than it has, which happens only if the lists of edges
up hold an entry that the lists of edges down lack.
-/

namespace Downhill

variable {g : Grid}

/-- The state of a recount. -/
structure Peel (g : Grid) where
  /-- The longest descent found so far from each cell. -/
  longest : Table Nat g.size
  /-- The number of edges down from each cell that are still open. -/
  pending : Table Nat g.size
  /-- All cells that have joined the queue, in the order in which they did. -/
  order : Array g.Node
  /-- How many cells of the queue have been peeled. -/
  peeled : Nat

namespace Peel

/-- Closes an edge from `v` down to a cell whose longest descent has `below` edges. -/
def close (below : Nat) (p : Peel g) (v : g.Node) : Option (Peel g) :=
  if p.pending.get v = 0 then none
  else some {
    longest := p.longest.put v (max (p.longest.get v) (below + 1))
    pending := p.pending.put v (p.pending.get v - 1)
    order := if p.pending.get v = 1 then p.order.push v else p.order
    peeled := p.peeled }

/-- Peels a cell. -/
def step (up : Table (List g.Node) g.size) (p : Peel g) (v : g.Node) : Option (Peel g) :=
  (up.get v).foldlM (close (p.longest.get v)) { p with peeled := p.peeled + 1 }

/-- Peels the cells of the queue, at most as many as said. -/
def run (up : Table (List g.Node) g.size) : Nat → Peel g → Option (Peel g)
  | 0, p => some p
  | bound + 1, p =>
    match p.order[p.peeled]? with
    | some v => (p.step up v).bind (run up bound)
    | none => some p

end Peel

namespace Terrain

/-- A recount that has not started. -/
def peel (t : Terrain g) : Peel g where
  longest := .constant g.size 0
  pending := Vector.ofFn fun v => (t.down.get v).length
  order := t.sinks.toArray
  peeled := 0

/-- The length of the longest descent from each cell, from the lists of edges alone. -/
def recount (t : Terrain g) : Option (Table Nat g.size) :=
  (t.peel.run t.up g.size).map Peel.longest

end Terrain

end Downhill
