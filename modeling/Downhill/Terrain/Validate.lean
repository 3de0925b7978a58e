import Downhill.Terrain.Recount

/-!
# Checking a terrain

A terrain is sound if its two families of lists hold the same edges equally often, each cell's length is that of its
longest descent, and the set of summits holds exactly the cells with an edge down and none up. The check looks for
the first fault in this order, and within each part for the first cell.
-/

namespace Downhill

/-- A fault of a terrain. Cells are given by their numbers. -/
inductive Violation where
  /-- A cell's length is not that of its longest descent. -/
  | longestPath (node expected found : Nat)
  /-- A summit is not in the set of summits. -/
  | missingSummit (node : Nat)
  /-- A cell in the set of summits is none. -/
  | spuriousSummit (node : Nat)
  /-- An edge down is not recorded equally often as an edge up. -/
  | unpairedEdge (upper lower : Nat)
deriving DecidableEq

/-- The wording of a fault. -/
def Violation.message : Violation → String
  | longestPath node expected found => s!"node Node({node}) has longest_path {found}, expected {expected}"
  | missingSummit node => s!"node Node({node}) is a summit but is missing from the summit set"
  | spuriousSummit node => s!"node Node({node}) is in the summit set but is not a summit"
  | unpairedEdge upper lower => s!"descent edge Node({upper}) -> Node({lower}) has no matching ascent edge"

/-- The outcome of a check. -/
inductive Verdict where
  | sound
  | violated (violation : Violation)
  /-- The recount of the longest descents broke off. -/
  | brokeOff
deriving DecidableEq

namespace Terrain

variable {g : Grid}

/-- The first edge down that is not recorded equally often as an edge up. -/
def unpaired? (t : Terrain g) : Option Violation :=
  g.nodes.findSome? fun upper =>
    ((t.down.get upper).find? fun lower => (t.down.get upper).count lower != (t.up.get lower).count upper).map
      fun lower =>
      .unpairedEdge upper lower

/-- The first cell whose length differs from the expected one. -/
def mislaid? (t : Terrain g) (expected : Table Nat g.size) : Option Violation :=
  (g.nodes.find? fun v => t.longest.get v != expected.get v).map fun v : g.Node =>
    .longestPath v.val (expected.get v) (t.longest.get v)

/-- Whether a cell has an edge down and none up. -/
def hasSummitEdges (t : Terrain g) (v : g.Node) : Bool :=
  (t.up.get v).isEmpty && !(t.down.get v).isEmpty

/-- The first cell that is wrongly in the set of summits or wrongly outside. -/
def misjudged? (t : Terrain g) : Option Violation :=
  (g.nodes.find? fun v => t.hasSummitEdges v != t.summit.get v).map fun v =>
    if t.summit.get v then .spuriousSummit v else .missingSummit v

/-- Checks a terrain. -/
def validate (t : Terrain g) : Verdict :=
  match t.unpaired? with
  | some violation => .violated violation
  | none =>
    match t.recount with
    | none => .brokeOff
    | some expected =>
      match (t.mislaid? expected).or t.misjudged? with
      | some violation => .violated violation
      | none => .sound

end Terrain

end Downhill
