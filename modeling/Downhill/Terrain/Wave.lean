import Downhill.Terrain.Basic

/-!
# Raising longest descents

A longer descent from a cell makes longer descents from the cells above it. The raise goes up as a wave, one edge at
a time: it proposes a length to the cells of its frontier, raises those whose known length is less, and goes on from
the raised cells to the cells above them with a length that is one more. A cell that is not raised stops the wave
there, for the cells above it already know a length that is at least one more than its own. A cell may be raised
more than once, by waves of different length that reach it one after the other.

Each step goes to strictly higher cells, so a wave has left the grid after at most as many steps as there are cells.

* `get_sweep_of_mem`, `get_sweep_of_not_mem` : the lengths after a proposal to a list of cells;
* `mem_sweep`, `nodup_sweep`                 : the cells that a proposal raises, each of them once.
-/

namespace Downhill

variable {g : Grid}

/-- The state of a raise. -/
structure Wave (g : Grid) where
  /-- The lengths known so far. -/
  longest : Table Nat g.size
  /-- The length proposed to the frontier. -/
  proposed : Nat
  /-- The cells reached next, once for each edge that leads to them. -/
  frontier : List g.Node
  /-- The number of raises so far. -/
  raised : Nat

namespace Wave

/-- Proposes a length to each cell of a list in turn. Returns the cells raised, in order, and the new lengths. -/
def sweep (proposed : Nat) : List g.Node → Table Nat g.size → List g.Node × Table Nat g.size
  | [], longest => ([], longest)
  | v :: rest, longest =>
    if longest.get v < proposed then
      let (risen, longest) := sweep proposed rest (longest.put v proposed)
      (v :: risen, longest)
    else sweep proposed rest longest

/-- One edge up: raises the frontier and moves it to the cells above the raised ones. -/
def step (up : Table (List g.Node) g.size) : Wave g → Wave g
  | ⟨longest, proposed, frontier, raised⟩ =>
    let (risen, longest) := sweep proposed frontier longest
    ⟨longest, proposed + 1, risen.flatMap fun v => up.get v, raised + risen.length⟩

/-- Steps until the frontier is empty, at most as often as said. -/
def run (up : Table (List g.Node) g.size) : Nat → Wave g → Wave g
  | 0, w => w
  | bound + 1, w => if w.frontier.isEmpty then w else run up bound (w.step up)

/-! ### Sweeps -/

/-- A sweep leaves the cells outside the frontier alone. -/
theorem get_sweep_of_not_mem (proposed : Nat) {frontier : List g.Node} (longest : Table Nat g.size) {v : g.Node}
    (h : v ∉ frontier) : (sweep proposed frontier longest).2.get v = longest.get v := by
  induction frontier generalizing longest with
  | nil => rfl
  | cons u rest ih =>
    simp only [List.mem_cons, not_or] at h
    unfold sweep
    split
    · simp only [ih _ h.2, Table.get_put, if_neg h.1]
    · exact ih _ h.2

/-- A sweep raises the cells of the frontier to the proposed length. -/
theorem get_sweep_of_mem (proposed : Nat) {frontier : List g.Node} (longest : Table Nat g.size) {v : g.Node}
    (h : v ∈ frontier) : (sweep proposed frontier longest).2.get v = max (longest.get v) proposed := by
  induction frontier generalizing longest with
  | nil => contradiction
  | cons u rest ih =>
    unfold sweep
    split
    · next hu =>
      by_cases hr : v ∈ rest
      · simp only [ih _ hr, Table.get_put]
        split
        · next huv =>
          rw [huv]
          omega
        · rfl
      · have huv : v = u := (List.mem_cons.mp h).resolve_right hr
        simp only [get_sweep_of_not_mem _ _ hr, Table.get_put, if_pos huv]
        rw [huv]
        omega
    · next hu =>
      by_cases hr : v ∈ rest
      · exact ih _ hr
      · have huv : v = u := (List.mem_cons.mp h).resolve_right hr
        rw [get_sweep_of_not_mem _ _ hr, huv]
        omega

/-- The cells that a sweep raises are those of the frontier that know less than the proposed length. -/
theorem mem_sweep {proposed : Nat} {frontier : List g.Node} {longest : Table Nat g.size} {v : g.Node} :
    v ∈ (sweep proposed frontier longest).1 ↔ v ∈ frontier ∧ longest.get v < proposed := by
  induction frontier generalizing longest with
  | nil => simp [sweep]
  | cons u rest ih =>
    unfold sweep
    split
    · next h =>
      simp only [List.mem_cons, ih, Table.get_put]
      by_cases huv : v = u
      · subst huv
        simp [h]
      · simp [huv]
    · next h =>
      simp only [List.mem_cons, ih]
      by_cases huv : v = u
      · subst huv
        simp [h]
      · simp [huv]

/-- A sweep raises each cell once at most. -/
theorem nodup_sweep (proposed : Nat) (frontier : List g.Node) (longest : Table Nat g.size) :
    (sweep proposed frontier longest).1.Nodup := by
  induction frontier generalizing longest with
  | nil => simp [sweep]
  | cons u rest ih =>
    unfold sweep
    split
    · refine List.nodup_cons.mpr ⟨?_, ih _⟩
      simp [mem_sweep, Table.get_put]
    · exact ih _

end Wave

end Downhill
