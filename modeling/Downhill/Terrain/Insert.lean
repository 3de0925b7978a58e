import Downhill.Terrain.Wave

/-!
# Recording an edge

To record an edge is to append it to the lists of both its cells, to raise the lengths that it makes longer, and to
bring the set of summits up to date: a summit has an edge down and none up, so an edge takes its lower cell out of
the set and puts its upper cell in, unless something descends to that one.

Edges may be recorded in any order, between any two cells of different elevation, and more than once.

* `down_link`, `up_link`     : what an edge adds to the lists;
* `down_insert`, `up_insert` : recording an edge changes the lists in no other way.
-/

namespace Downhill

variable {g : Grid}

/-- How the set of summits changes. -/
inductive SummitChange (g : Grid) where
  | entered (v : g.Node)
  | left (v : g.Node)
deriving DecidableEq

/-- What recording an edge did beside adding it. -/
structure Insertion (g : Grid) where
  /-- How many times a length was raised. -/
  raised : Nat
  /-- The changes of the set of summits, in the order in which they apply. -/
  changes : List (SummitChange g)
deriving DecidableEq

namespace SummitChange

/-- Carries a change out. -/
def apply (summit : Table Bool g.size) : SummitChange g → Table Bool g.size
  | entered v => summit.put v true
  | left v => summit.put v false

end SummitChange

namespace Terrain

/-- Appends an edge to the lists of both its cells. -/
def link (e : Edge g) : Terrain g → Terrain g
  | ⟨down, up, longest, summit⟩ =>
    { down := down.put e.upper (down.get e.upper ++ [e.lower])
      up := up.put e.lower (up.get e.lower ++ [e.upper])
      longest := longest
      summit := summit }

/-- The raise that an edge starts: its upper cell has a descent that is one longer than the longest from its lower
cell. -/
def wave (e : Edge g) (longest : Table Nat g.size) : Wave g where
  longest := longest
  proposed := longest.get e.lower + 1
  frontier := [e.upper]
  raised := 0

/-- How an edge changes the set of summits, if it is already in the lists. -/
def summitChanges (e : Edge g) (up : Table (List g.Node) g.size) (summit : Table Bool g.size) :
    List (SummitChange g) :=
  (if summit.get e.lower then [.left e.lower] else []) ++
    (if (up.get e.upper).isEmpty && !summit.get e.upper then [.entered e.upper] else [])

/-- Records an edge. -/
def insert (t : Terrain g) (e : Edge g) : Terrain g × Insertion g :=
  match link e t with
  | ⟨down, up, longest, summit⟩ =>
    let done := (wave e longest).run up g.size
    let changes := summitChanges e up summit
    (⟨down, up, done.longest, changes.foldl SummitChange.apply summit⟩, ⟨done.raised, changes⟩)

/-- Records edges one after another. -/
def insertAll (t : Terrain g) (edges : List (Edge g)) : Terrain g :=
  edges.foldl (fun t e => (t.insert e).1) t

/-- Records the edge between the cells with the given numbers, if there are such cells and it goes down. -/
def insert? (t : Terrain g) (upper lower : Nat) : Option (Terrain g × Insertion g) :=
  (Edge.ofNat? g upper lower).map t.insert

/-- Records the edges between pairs of cells one after another. Where there is no such edge the terrain stays as it
is and the answer is `none`. -/
def insertEach (t : Terrain g) : List (Nat × Nat) → Terrain g × List (Option (Insertion g))
  | [] => (t, [])
  | (upper, lower) :: rest =>
    match t.insert? upper lower with
    | some (next, insertion) =>
      let (last, insertions) := next.insertEach rest
      (last, some insertion :: insertions)
    | none =>
      let (last, insertions) := t.insertEach rest
      (last, none :: insertions)

/-! ### The lists of edges -/

theorem down_link (e : Edge g) (t : Terrain g) (v : g.Node) :
    (link e t).down.get v = if v = e.upper then t.down.get v ++ [e.lower] else t.down.get v := by
  simp only [link, Table.get_put]
  split
  · next h => rw [h]
  · rfl

theorem up_link (e : Edge g) (t : Terrain g) (v : g.Node) :
    (link e t).up.get v = if v = e.lower then t.up.get v ++ [e.upper] else t.up.get v := by
  simp only [link, Table.get_put]
  split
  · next h => rw [h]
  · rfl

theorem down_insert (t : Terrain g) (e : Edge g) : (t.insert e).1.down = (link e t).down := rfl

theorem up_insert (t : Terrain g) (e : Edge g) : (t.insert e).1.up = (link e t).up := rfl

end Terrain

end Downhill
