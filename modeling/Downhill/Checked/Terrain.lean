import Downhill.Checked.Word
import Downhill.Terrain.Build
import Downhill.Terrain.Validate

/-!
# Terrains with every check made

Here the operations on terrains are carried out as on a machine. Cells are addressed by numbers that are computed,
lengths and counts are words, and what an operation takes for granted is asserted. An operation has no result if a
value leaves its range, an address is not that of a cell, an assertion fails, or a loop has not come to its end after
as many rounds as there are cells.
-/

namespace Downhill.Checked

variable {g : Grid}

/-! ### Recording an edge -/

/-- Proposes a length to each cell of a list in turn. Returns the cells raised, the new lengths, and the count of raises
carried on. -/
def sweep (proposed : Nat) :
    List g.Node → Table Nat g.size → Nat → Option (List g.Node × Table Nat g.size × Nat)
  | [], longest, raised => some ([], longest, raised)
  | v :: rest, longest, raised =>
    if longest.get v < proposed then do
      let raised ← add raised 1
      let (risen, longest, raised) ← sweep proposed rest (longest.put v proposed) raised
      return (v :: risen, longest, raised)
    else sweep proposed rest longest raised

/-- Raises a frontier `level` edges above a cell of length `base`, and goes on with the cells above the raised ones.
Returns the new lengths and the count of raises. -/
def climb (up : Table (List g.Node) g.size) (base : Nat) :
    Nat → Nat → List g.Node → Table Nat g.size → Nat → Option (Table Nat g.size × Nat)
  | _, _, [], longest, raised => some (longest, raised)
  | 0, _, _ :: _, _, _ => none
  | bound + 1, level, v :: rest, longest, raised => do
    let proposed ← add base level
    let (risen, longest, raised) ← sweep proposed (v :: rest) longest raised
    climb up base bound (← add level 1) (risen.flatMap fun u => up.get u) longest raised

/-- Raises the lengths that an edge makes longer. Returns the new lengths and the count of raises. -/
def raise (up : Table (List g.Node) g.size) (e : Edge g) (longest : Table Nat g.size) :
    Option (Table Nat g.size × Nat) := do
  let proposed ← add (longest.get e.lower) 1
  if longest.get e.upper < proposed then
    let (longest, raised) ← climb up proposed (g.size - 1) 1 (up.get e.upper) (longest.put e.upper proposed) 0
    return (longest, ← add 1 raised)
  else return (longest, 0)

/-- How an edge changes the set of summits. A cell that enters it must have an edge down. -/
def summitChanges (e : Edge g) (down up : Table (List g.Node) g.size) (summit : Table Bool g.size) :
    Option (List (SummitChange g)) :=
  if (up.get e.upper).isEmpty && !summit.get e.upper && (down.get e.upper).isEmpty then none
  else some (Terrain.summitChanges e up summit)

/-- Records the edge between two cells. The first must be strictly higher. -/
def insert (t : Terrain g) (upper lower : g.Node) : Option (Terrain g × Insertion g) := do
  let e ← Edge.ofNodes? upper lower
  let linked := t.link e
  let (longest, raised) ← raise linked.up e linked.longest
  let changes ← summitChanges e linked.down linked.up linked.summit
  return (⟨linked.down, linked.up, longest, changes.foldl SummitChange.apply linked.summit⟩, ⟨raised, changes⟩)

/-- Records the edges between pairs of cells one after another. -/
def insertEach (t : Terrain g) : List (Nat × Nat) → Option (Terrain g × List (Insertion g))
  | [] => some (t, [])
  | (upper, lower) :: rest => do
    let (next, insertion) ← insert t (← g.nodeOfNat? upper) (← g.nodeOfNat? lower)
    let (last, insertions) ← insertEach next rest
    return (last, insertion :: insertions)

/-! ### Checking a terrain -/

/-- The number of edges. -/
def edgeCount (t : Terrain g) : Option Nat :=
  sum (g.nodes.map fun v => (t.down.get v).length)

/-- Closes an edge from `v` down to a cell whose longest descent has `below` edges. -/
def close (below : Nat) (p : Peel g) (v : g.Node) : Option (Peel g) :=
  (add below 1).bind fun _ => p.close below v

/-- Peels the cells of the queue until it is empty. -/
def peel (up : Table (List g.Node) g.size) : Nat → Peel g → Option (Peel g)
  | 0, p => if p.peeled < p.order.size then none else some p
  | bound + 1, p =>
    match p.order[p.peeled]? with
    | some v => ((up.get v).foldlM (close (p.longest.get v)) { p with peeled := p.peeled + 1 }).bind (peel up bound)
    | none => some p

/-- Checks a terrain. -/
def validate (t : Terrain g) : Option Verdict :=
  match t.unpaired? with
  | some violation => some (.violated violation)
  | none => do
    let counted ← peel t.up g.size t.peel
    match (t.mislaid? counted.longest).or t.misjudged? with
    | some violation => return .violated violation
    | none => return .sound

/-! ### The terrain of a grid -/

/-- The terrain without edges. The rows are cut out of the cells, and must have as many elevations. -/
def bare (g : Grid) : Option (Terrain g) :=
  if g.width ≠ 0 ∧ g.rows.flatten.length = g.size then some (.bare g) else none

/-- Records the edge between the cells with the given numbers, if they differ in elevation. -/
def connect (t : Terrain g) (a b : Nat) : Option (Terrain g) := do
  let a ← g.nodeOfNat? a
  let b ← g.nodeOfNat? b
  if g.elevation b < g.elevation a then (insert t a b).map Prod.fst
  else if g.elevation a < g.elevation b then (insert t b a).map Prod.fst
  else some t

/-- Connects a cell with the one whose number is less by the given distance, unless the cell is the first in its row or
column. -/
def connectBack (node coordinate distance : Nat) (t : Terrain g) : Option (Terrain g) :=
  if 0 < coordinate then (sub node distance).bind (connect t node) else some t

/-- Connects the cell in column `x` of row `y` with the one to the left and the one above. -/
def visit (t : Terrain g) (x y : Nat) : Option (Terrain g) := do
  let node ← add (← mul y g.width) x
  (connectBack node x 1 t).bind (connectBack node y g.width)

/-- The columns and rows of all cells, row by row. -/
def places (width height : Nat) : List (Nat × Nat) :=
  (List.range height).flatMap fun y => (List.range width).map fun x => (x, y)

/-- The descents between the neighbouring cells of a grid, with the check that they are sound. -/
def build (g : Grid) : Option (Terrain g) := do
  let t ← (places g.width g.height).foldlM (fun t place => visit t place.1 place.2) (← bare g)
  match ← validate t with
  | .sound => (edgeCount t).map fun _ => t
  | _ => none

end Downhill.Checked
