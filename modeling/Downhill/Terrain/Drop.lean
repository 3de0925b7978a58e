import Downhill.Ascending
import Downhill.Terrain.Basic

/-!
# The drop of the longest descents from a cell

The descents of a given length from a cell are followed all at once, level by level: from a level, only those cells
below it are kept whose own longest descent is as long as the rest of the way. The lowest elevation met gives the
vertical drop. Where no cell is kept the walk ends, after an empty level. The same walk can also be taken step by step,
noting the levels as they are entered (`Terrain.follow`).

* `mem_nextLevel`, `pairwise_nextLevel` : the cells of a level, in ascending order.
-/

namespace Downhill

variable {g : Grid}

/-- What the descents of a given length from a cell come to. -/
structure Trace (g : Grid) where
  summit : g.Node
  length : Nat
  /-- The lowest elevation that the descents reach. -/
  lowest : Int
  /-- The height of the summit over the lowest elevation. -/
  drop : Nat
  /-- The cells of each level below the summit in ascending order, if they were asked for. -/
  levels : List (List g.Node)
deriving DecidableEq

/-- The least elevation of a cell and others. -/
def Grid.lowest (g : Grid) (v : g.Node) (others : List g.Node) : Int :=
  (others.map g.elevation).foldl min (g.elevation v)

namespace Terrain

/-- The cells directly below a level from which the longest descent has `rest` edges, in ascending order. -/
def nextLevel (t : Terrain g) (rest : Nat) (level : List g.Node) : List g.Node :=
  ascending ((level.flatMap fun v => t.down.get v).filter fun v => t.longest.get v = rest)

/-- The levels below a level, with as many edges to go as said, up to the first empty one. -/
def levelsBelow (t : Terrain g) : Nat → List g.Node → List (List g.Node)
  | 0, _ => []
  | rest + 1, level =>
    match t.nextLevel rest level with
    | [] => [[]]
    | v :: vs => (v :: vs) :: t.levelsBelow rest (v :: vs)

/-- Follows the descents of the given length from a cell. -/
def trace (t : Terrain g) (summit : g.Node) (length : Nat) (withLevels : Bool) : Trace g :=
  let levels := t.levelsBelow length [summit]
  let lowest := g.lowest summit levels.flatten
  { summit := summit
    length := length
    lowest := lowest
    drop := (g.elevation summit - lowest).toNat
    levels := if withLevels then levels else [] }

end Terrain

/-! ### Walks that note their levels -/

/-- A walk down from a cell as far as it has come. -/
structure Tracing (g : Grid) where
  /-- The cells of the level that it has reached. -/
  level : List g.Node
  /-- The lowest elevation met. -/
  lowest : Int
  /-- The levels noted. -/
  levels : List (List g.Node)

namespace Tracing

def start (s : g.Node) : Tracing g := ⟨[s], g.elevation s, []⟩

/-- Goes on to the next level, and notes it if the levels are asked for. -/
def enter (walk : Tracing g) (next : List g.Node) (withLevels : Bool) : Tracing g where
  level := next
  lowest := match (next.map g.elevation).min? with
    | some lowest => min walk.lowest lowest
    | none => walk.lowest
  levels := if withLevels then walk.levels ++ [next] else walk.levels

/-- What the walk from a cell comes to. -/
def trace (walk : Tracing g) (s : g.Node) (length : Nat) : Trace g where
  summit := s
  length := length
  lowest := walk.lowest
  drop := (g.elevation s - walk.lowest).natAbs
  levels := walk.levels

end Tracing

/-- Follows the longest descents for the given number of edges, up to the first level without cells. -/
def Terrain.follow (t : Terrain g) (withLevels : Bool) : Nat → Tracing g → Tracing g
  | 0, walk => walk
  | rest + 1, walk =>
    let next := t.nextLevel rest walk.level
    if next = [] then walk.enter next withLevels
    else t.follow withLevels rest (walk.enter next withLevels)

/-! ### Levels -/

theorem Terrain.mem_nextLevel {t : Terrain g} {rest : Nat} {level : List g.Node} {v : g.Node} :
    v ∈ t.nextLevel rest level ↔ (∃ u ∈ level, v ∈ t.down.get u) ∧ t.longest.get v = rest := by
  simp [nextLevel]

theorem Terrain.pairwise_nextLevel (t : Terrain g) (rest : Nat) (level : List g.Node) :
    (t.nextLevel rest level).Pairwise (· < ·) :=
  pairwise_ascending _

/-! ### The deepest descent -/

/-- The first trace with the greatest drop. -/
def Trace.deepest? (traces : List (Trace g)) : Option (Trace g) :=
  traces.foldl (fun best trace =>
    match best with
    | some b => if trace.drop ≤ b.drop then some b else some trace
    | none => some trace) none

/-- The trace of the first cell from which the descents of the given length drop deepest. -/
def Terrain.deepest? (t : Terrain g) (peaks : List g.Node) (length : Nat) (withLevels : Bool) : Option (Trace g) :=
  Trace.deepest? (peaks.map fun v => t.trace v length withLevels)

end Downhill
