import Downhill.Proofs.CheckedBuild
import Downhill.Proofs.GridText
import Downhill.Proofs.RaiseCount
import Mathlib.Data.Fintype.Prod

/-!
# More raises than a word counts

The raises that one edge brings about can grow in number with the square of the number of cells. In the first two
columns of a ladder descents lead down row by row. From each second row of the first column they go straight to the row
after next, or around by the second column, which takes two steps more; so their lengths, down to the foot of the last
column, are many. The last column itself falls from its foot to its head, and a wall of lowest cells keeps the two
apart. The last edge of the scan joins them at the foot: it has a long descent below and all these descents above, and
each of them raises the cell that it comes from.

* `descends_beforeLast`, `dropLast_edges_concat` : the last edge of a scan, and the terrain before it;
* `walk_foot`, `walk_head`, `longest_ladder_le`  : the descents of a ladder;
* `mul_self_le_raised_ladder`                    : the raises of the last edge;
* `build_ladder_eq_none`                         : the terrain of a large ladder is not built with every check made.
-/

namespace Downhill

/-! ### The last edge of a scan -/

namespace Grid

variable {g : Grid}

/-- If the last cell is higher than the one above it, the edge between them is found last. -/
theorem dropLast_edges_concat {e : Edge g} (hlast : e.upper.val + 1 = g.size)
    (habove : g.above? e.upper = some e.lower) : g.edges.dropLast ++ [e] = g.edges := by
  have hnodes : g.nodes.dropLast ++ [e.upper] = g.nodes := by
    have hlength : g.size - 1 < (List.finRange g.size).length := by
      rw [List.length_finRange]
      omega
    apply List.dropLast_append_getLast?
    rw [Option.mem_def, List.getLast?_eq_getElem?, nodes, List.length_finRange, List.getElem?_eq_getElem hlength,
      List.getElem_finRange, Option.some.injEq]
    apply Fin.ext
    show g.size - 1 = e.upper.val
    omega
  have hedge : Edge.between? e.upper e.lower = some e := between?_eq_some_iff.mpr (.inl ⟨rfl, rfl⟩)
  have hedges : g.edges = (g.nodes.dropLast.flatMap g.edgesBack ++
      ((g.left? e.upper).bind (Edge.between? e.upper)).toList) ++ [e] := by
    rw [edges, ← hnodes, List.flatMap_append, List.dropLast_concat, List.flatMap_singleton, edgesBack, habove,
      Option.bind_some, hedge, ← List.append_assoc]
    rfl
  rw [hedges, List.dropLast_concat]

end Grid

/-- The terrain of a grid but for the last edge. -/
def Terrain.beforeLast (g : Grid) : Terrain g :=
  (bare g).insertAll g.edges.dropLast

theorem Terrain.descends_beforeLast {g : Grid} {e : Edge g} (he : g.edges.dropLast ++ [e] = g.edges) {v u : g.Node} :
    (beforeLast g).Descends v u ↔ g.StepsDown v u ∧ ¬(v = e.upper ∧ u = e.lower) := by
  have hnodup := g.nodup_edges
  rw [← he, List.nodup_append'] at hnodup
  have hmem : ∀ e', e' ∈ g.edges.dropLast ↔ e' ∈ g.edges ∧ e' ≠ e := by
    intro e'
    rw [← he, List.mem_append, List.mem_singleton, he]
    constructor
    · intro h
      exact ⟨.inl h, fun heq => hnodup.2.2 h (List.mem_singleton.mpr heq)⟩
    · rintro ⟨h | h, hne⟩
      · exact h
      · exact absurd h hne
  rw [Descends, beforeLast, mem_down_insertAll_bare]
  constructor
  · rintro ⟨e', he', rfl, rfl⟩
    obtain ⟨hedge, hne⟩ := (hmem e').mp he'
    exact ⟨⟨Grid.mem_edges.mp hedge, e'.descends⟩, fun heq => hne (Edge.ext heq.1 heq.2)⟩
  · rintro ⟨⟨hadj, hlt⟩, hne⟩
    refine ⟨⟨v, u, hlt⟩, (hmem _).mpr ⟨Grid.mem_edges.mpr hadj, ?_⟩, rfl, rfl⟩
    rintro rfl
    exact hne ⟨rfl, rfl⟩

/-! ### Ladders -/

/-- The elevation of a cell of a ladder with `2 * n + 1` rows. -/
def ladderElevation (n x y : Nat) : Int :=
  if x = 0 then 4 * n + 3 - 2 * y - y % 2
  else if x = 1 then 4 * n + 2 - 2 * y + y % 2
  else if x = 2 then if y = 2 * n then 1 else -(2 * n) - 1
  else y - 2 * n

private theorem ladderElevation_zero (n y : Nat) : ladderElevation n 0 y = 4 * n + 3 - 2 * y - y % 2 := rfl

private theorem ladderElevation_one (n y : Nat) : ladderElevation n 1 y = 4 * n + 2 - 2 * y + y % 2 := rfl

private theorem ladderElevation_two (n y : Nat) :
    ladderElevation n 2 y = (if y = 2 * n then 1 else -(2 * n) - 1 : Int) := rfl

private theorem ladderElevation_three (n y : Nat) : ladderElevation n 3 y = y - 2 * n := rfl

private theorem ladderElevation_bounds {n x y : Nat} (hy : y < 2 * n + 1) :
    -(2 * n) - 1 ≤ ladderElevation n x y ∧ ladderElevation n x y ≤ 4 * n + 3 := by
  unfold ladderElevation
  split
  · omega
  · split
    · omega
    · split
      · split <;> omega
      · omega

/-- A height for all edges of a ladder but the last: the elevations below zero are lifted up by as much as the column
that falls to its head is deep. -/
def ladderHeight (n : Nat) (z : Int) : Int :=
  if 0 ≤ z then z else z + 2 * n + 1

namespace Grid

/-- The ladder with `2 * n + 1` rows. -/
def ladder (n : Nat) (h : n < 2 ^ 59) : Grid :=
  ofFn 4 (2 * n + 1) (by decide) (Nat.succ_pos _) (by simp only [UInt64.size]; omega)
    fun x y => Int64.ofInt (ladderElevation n x y)

/-- The cell in column `x` of row `y` of a ladder. Beyond the last column and row the count starts anew. -/
def ladderCell (n : Nat) (h : n < 2 ^ 59) (x y : Nat) : (ladder n h).Node :=
  (ladder n h).node ⟨x % 4, Nat.mod_lt _ (by decide)⟩ ⟨y % (2 * n + 1), Nat.mod_lt _ (Nat.succ_pos _)⟩

variable {n : Nat} {h : n < 2 ^ 59}

private theorem x_ladderCell {x : Nat} (hx : x < 4) (y : Nat) : ((ladder n h).x (ladderCell n h x y)).val = x := by
  rw [ladderCell, x_node]
  exact Nat.mod_eq_of_lt hx

private theorem y_ladderCell (x : Nat) {y : Nat} (hy : y < 2 * n + 1) :
    ((ladder n h).y (ladderCell n h x y)).val = y := by
  rw [ladderCell, y_node]
  exact Nat.mod_eq_of_lt hy

private theorem eq_ladderCell {v : (ladder n h).Node} {x y : Nat} (hx : ((ladder n h).x v).val = x)
    (hy : ((ladder n h).y v).val = y) : v = ladderCell n h x y := by
  subst hx hy
  exact ext_x_y (Fin.ext (x_ladderCell ((ladder n h).x v).isLt _).symm)
    (Fin.ext (y_ladderCell _ ((ladder n h).y v).isLt).symm)

private theorem elevation_ladder (v : (ladder n h).Node) :
    (ladder n h).elevation v = ladderElevation n ((ladder n h).x v) ((ladder n h).y v) := by
  have hcell : (ladder n h).cells.get v = Int64.ofInt (ladderElevation n ((ladder n h).x v) ((ladder n h).y v)) :=
    (get_cells v).trans (cell_ofFn _ _ _ _ _ _)
  have hbounds := ladderElevation_bounds (n := n) (x := (ladder n h).x v) ((ladder n h).y v).isLt
  rw [elevation, hcell]
  apply Int64.toInt_ofInt_of_le <;> omega

private theorem elevation_ladderCell {x y : Nat} (hx : x < 4) (hy : y < 2 * n + 1) :
    (ladder n h).elevation (ladderCell n h x y) = ladderElevation n x y := by
  rw [elevation_ladder, x_ladderCell hx, y_ladderCell x hy]

/-- The edge from the foot of the last column up the column. -/
def ladderEdge (hn : 0 < n) : Edge (ladder n h) where
  upper := ladderCell n h 3 (2 * n)
  lower := ladderCell n h 3 (2 * n - 1)
  descends := by
    rw [elevation_ladderCell (by decide) (by omega), elevation_ladderCell (by decide) (by omega), ladderElevation_three,
      ladderElevation_three]
    omega

private theorem dropLast_edges_ladder (hn : 0 < n) :
    (ladder n h).edges.dropLast ++ [ladderEdge hn] = (ladder n h).edges := by
  apply dropLast_edges_concat
  · show 2 * n % (2 * n + 1) * 4 + 3 % 4 + 1 = 4 * (2 * n + 1)
    rw [Nat.mod_eq_of_lt (Nat.lt_succ_self _)]
    omega
  · rw [above?_eq_some_iff]
    constructor
    · show ((ladder n h).y (ladderCell n h 3 (2 * n - 1))).val + 1 = ((ladder n h).y (ladderCell n h 3 (2 * n))).val
      rw [y_ladderCell 3 (by omega), y_ladderCell 3 (by omega)]
      omega
    · apply Fin.ext
      show ((ladder n h).x (ladderCell n h 3 (2 * n - 1))).val = ((ladder n h).x (ladderCell n h 3 (2 * n))).val
      rw [x_ladderCell (by decide), x_ladderCell (by decide)]

end Grid

namespace Terrain

open Grid

variable {n : Nat} {h : n < 2 ^ 59}

/-! ### Descents of a ladder -/

/-- The edges of a ladder but for the last are the steps to lower neighbours that do not start at its foot. -/
private theorem descends_ladder (hn : 0 < n) {x y x' y' : Nat}
    (hcells : x < 4 ∧ y < 2 * n + 1 ∧ x' < 4 ∧ y' < 2 * n + 1 ∧ (x < 3 ∨ y < 2 * n))
    (hadj : y = y' ∧ (x + 1 = x' ∨ x' + 1 = x) ∨ x = x' ∧ (y + 1 = y' ∨ y' + 1 = y))
    (hlt : ladderElevation n x' y' < ladderElevation n x y) :
    (beforeLast (ladder n h)).Descends (ladderCell n h x y) (ladderCell n h x' y') := by
  obtain ⟨hx, hy, hx', hy', hne⟩ := hcells
  apply (descends_beforeLast (dropLast_edges_ladder hn)).mpr
  refine ⟨⟨?_, ?_⟩, ?_⟩
  · rw [adjacent_iff_val, x_ladderCell hx, x_ladderCell hx', y_ladderCell x hy, y_ladderCell x' hy']
    exact hadj
  · rwa [elevation_ladderCell hx hy, elevation_ladderCell hx' hy']
  · rintro ⟨hupper, _⟩
    have hfoot : ladderCell n h x y = ladderCell n h 3 (2 * n) := hupper
    have hxu : x = 3 := by
      rw [← x_ladderCell (h := h) hx y, hfoot]
      exact x_ladderCell (by decide) _
    have hyu : y = 2 * n := by
      rw [← y_ladderCell (h := h) x hy, hfoot]
      exact y_ladderCell 3 (by omega)
    omega

/-- From each second row of the first column on there are two ways down to the row after next. -/
private theorem walk_rung (hn : 0 < n) {i : Nat} (hi : i < n) :
    Walk (beforeLast (ladder n h)).Descends 2 (ladderCell n h 0 (2 * i)) (ladderCell n h 0 (2 * (i + 1))) ∧
      Walk (beforeLast (ladder n h)).Descends 4 (ladderCell n h 0 (2 * i)) (ladderCell n h 0 (2 * (i + 1))) := by
  have hdown : (beforeLast (ladder n h)).Descends (ladderCell n h 0 (2 * i)) (ladderCell n h 0 (2 * i + 1)) :=
    descends_ladder hn (by omega) (by omega) (by
      rw [ladderElevation_zero, ladderElevation_zero]
      omega)
  have hout : (beforeLast (ladder n h)).Descends (ladderCell n h 0 (2 * i)) (ladderCell n h 1 (2 * i)) :=
    descends_ladder hn (by omega) (by omega) (by
      rw [ladderElevation_one, ladderElevation_zero]
      omega)
  have haround : (beforeLast (ladder n h)).Descends (ladderCell n h 1 (2 * i)) (ladderCell n h 1 (2 * i + 1)) :=
    descends_ladder hn (by omega) (by omega) (by
      rw [ladderElevation_one, ladderElevation_one]
      omega)
  have hback : (beforeLast (ladder n h)).Descends (ladderCell n h 1 (2 * i + 1)) (ladderCell n h 0 (2 * i + 1)) :=
    descends_ladder hn (by omega) (by omega) (by
      rw [ladderElevation_zero, ladderElevation_one]
      omega)
  have hnext : (beforeLast (ladder n h)).Descends (ladderCell n h 0 (2 * i + 1)) (ladderCell n h 0 (2 * (i + 1))) :=
    descends_ladder hn (by omega) (by omega) (by
      rw [ladderElevation_zero, ladderElevation_zero]
      omega)
  exact ⟨.cons hdown (.single hnext), .cons hout (.cons haround (.cons hback (.single hnext)))⟩

/-- From a rung `m` double rows above the foot there are descents to the foot with as many detours as one likes, up to
one on each rung. -/
theorem walk_foot (hn : 0 < n) {m : Nat} (hm : m ≤ n) {j : Nat} (hj : j ≤ m) :
    Walk (beforeLast (ladder n h)).Descends (2 * m + 2 * j + 3) (ladderCell n h 0 (2 * (n - m)))
      (ladderCell n h 3 (2 * n)) := by
  induction m generalizing j with
  | zero =>
    obtain rfl : j = 0 := by omega
    have hfirst : (beforeLast (ladder n h)).Descends (ladderCell n h 0 (2 * n)) (ladderCell n h 1 (2 * n)) :=
      descends_ladder hn (by omega) (by omega) (by
        rw [ladderElevation_one, ladderElevation_zero]
        omega)
    have hsecond : (beforeLast (ladder n h)).Descends (ladderCell n h 1 (2 * n)) (ladderCell n h 2 (2 * n)) :=
      descends_ladder hn (by omega) (by omega) (by
        rw [ladderElevation_two, ladderElevation_one, if_pos rfl]
        omega)
    have hthird : (beforeLast (ladder n h)).Descends (ladderCell n h 2 (2 * n)) (ladderCell n h 3 (2 * n)) :=
      descends_ladder hn (by omega) (by omega) (by
        rw [ladderElevation_three, ladderElevation_two, if_pos rfl]
        omega)
    exact .cons hfirst (.cons hsecond (.single hthird))
  | succ m ih =>
    obtain ⟨hstraight, haround⟩ := walk_rung (h := h) hn (i := n - (m + 1)) (by omega)
    rw [show n - (m + 1) + 1 = n - m by omega] at hstraight haround
    cases j with
    | zero =>
      have hwalk := hstraight.trans (ih (by omega) (Nat.zero_le m))
      rwa [show 2 + (2 * m + 2 * 0 + 3) = 2 * (m + 1) + 2 * 0 + 3 by omega] at hwalk
    | succ j =>
      have hwalk := haround.trans (ih (by omega) (Nat.le_of_succ_le_succ hj))
      rwa [show 4 + (2 * m + 2 * j + 3) = 2 * (m + 1) + 2 * (j + 1) + 3 by omega] at hwalk

/-- The last column falls to its head, and from there to the wall. -/
theorem walk_head (hn : 0 < n) {y : Nat} (hy : y < 2 * n) :
    Walk (beforeLast (ladder n h)).Descends (y + 1) (ladderCell n h 3 y) (ladderCell n h 2 0) := by
  induction y with
  | zero =>
    apply Walk.single
    apply descends_ladder hn (by omega) (by omega)
    rw [ladderElevation_two, ladderElevation_three, if_neg (by omega)]
    omega
  | succ y ih =>
    refine .cons (descends_ladder hn (by omega) (by omega) ?_) (ih (by omega))
    rw [ladderElevation_three, ladderElevation_three]
    omega

/-! ### The lengths of a ladder -/

/-- A step from an elevation of at least zero to one below zero leads far down, but for that of the last edge. -/
private theorem ladderElevation_add_lt {x y x' y' : Nat} (hcells : x < 4 ∧ y < 2 * n + 1 ∧ x' < 4 ∧ y' < 2 * n + 1)
    (hne : ¬(x = 3 ∧ y = 2 * n ∧ x' = 3))
    (hadj : y = y' ∧ (x + 1 = x' ∨ x' + 1 = x) ∨ x = x' ∧ (y + 1 = y' ∨ y' + 1 = y))
    (hneg : ladderElevation n x' y' < 0) (hpos : 0 ≤ ladderElevation n x y) :
    ladderElevation n x' y' + 2 * n + 1 < ladderElevation n x y := by
  obtain rfl | rfl | rfl | rfl : x' = 0 ∨ x' = 1 ∨ x' = 2 ∨ x' = 3 := by omega
  · rw [ladderElevation_zero] at hneg
    omega
  · rw [ladderElevation_one] at hneg
    omega
  · -- the wall is at the lowest elevation, and the foot does not stand beside it
    have hwall : y' ≠ 2 * n := by
      rintro rfl
      rw [ladderElevation_two, if_pos rfl] at hneg
      omega
    rw [ladderElevation_two, if_neg hwall]
    obtain rfl | rfl | rfl : x = 1 ∨ x = 2 ∨ x = 3 := by omega
    · rw [ladderElevation_one]
      omega
    · rw [ladderElevation_two] at hpos ⊢
      split at hpos
      · next h => rw [if_pos h]; omega
      · omega
    · rw [ladderElevation_three] at hpos
      omega
  · -- only the foot of the last column is not below zero
    rw [ladderElevation_three] at hneg
    obtain rfl | rfl : x = 2 ∨ x = 3 := by omega
    · rw [ladderElevation_two, if_neg (by omega)] at hpos
      omega
    · rw [ladderElevation_three] at hpos
      omega

private theorem ladderHeight_lt (hn : 0 < n) {v u : (ladder n h).Node} (hd : (beforeLast (ladder n h)).Descends v u) :
    ladderHeight n ((ladder n h).elevation u) < ladderHeight n ((ladder n h).elevation v) := by
  obtain ⟨⟨hadj, hlt⟩, hne⟩ := (descends_beforeLast (dropLast_edges_ladder hn)).mp hd
  have hlow : (ladder n h).elevation u < 0 → 0 ≤ (ladder n h).elevation v →
      (ladder n h).elevation u + 2 * n + 1 < (ladder n h).elevation v := by
    rw [elevation_ladder, elevation_ladder]
    apply ladderElevation_add_lt ⟨((ladder n h).x v).isLt, ((ladder n h).y v).isLt, ((ladder n h).x u).isLt,
      ((ladder n h).y u).isLt⟩ ?_ (adjacent_iff_val.mp hadj)
    rintro ⟨hxv, hyv, hxu⟩
    have hyu : ((ladder n h).y u).val = 2 * n - 1 := by
      have hrow := adjacent_iff_val.mp hadj
      have hlast : ((ladder n h).y u).val < 2 * n + 1 := ((ladder n h).y u).isLt
      omega
    exact hne ⟨eq_ladderCell hxv hyv, eq_ladderCell hxu hyu⟩
  unfold ladderHeight
  split <;> split <;> omega

private theorem ladderHeight_add_le (hn : 0 < n) {k : Nat} {v u : (ladder n h).Node}
    (hw : Walk (beforeLast (ladder n h)).Descends k v u) :
    ladderHeight n ((ladder n h).elevation u) + k ≤ ladderHeight n ((ladder n h).elevation v) := by
  induction hw with
  | nil v => omega
  | cons hd _ ih =>
    have := ladderHeight_lt hn hd
    omega

private theorem sound_beforeLast (g : Grid) : (beforeLast g).Sound :=
  sound_bare.insertAll _

/-- From the rungs of the first column no descent takes more steps than with all detours. -/
theorem longest_ladder_le (hn : 0 < n) {i : Nat} (hi : i ≤ n) :
    (beforeLast (ladder n h)).longest.get (ladderCell n h 0 (2 * i)) ≤ 4 * (n - i) + 3 := by
  obtain ⟨u, hw⟩ := (sound_beforeLast (ladder n h)).height.exists_walk (ladderCell n h 0 (2 * i))
  have hle := ladderHeight_add_le hn hw
  have hpos : 0 ≤ ladderHeight n ((ladder n h).elevation u) := by
    have hbounds := ladderElevation_bounds (n := n) (x := (ladder n h).x u) ((ladder n h).y u).isLt
    rw [← elevation_ladder] at hbounds
    unfold ladderHeight
    split <;> omega
  rw [elevation_ladderCell (by decide) (by omega), ladderElevation_zero] at hle
  unfold ladderHeight at hle hpos
  omega

private theorem le_longest_ladder (hn : 0 < n) :
    2 * n ≤ (beforeLast (ladder n h)).longest.get (ladderCell n h 3 (2 * n - 1)) := by
  have hle := (sound_beforeLast (ladder n h)).height.add_le (walk_head hn (y := 2 * n - 1) (by omega))
  omega

/-! ### The raises of the last edge -/

/-- The last edge of a ladder raises each of the upper rungs on as many levels as there are such rungs. -/
theorem mul_self_le_raised_ladder {k : Nat} (hk : 0 < k) (hkn : 2 * k ≤ n) :
    k * k ≤ ((beforeLast (ladder n h)).insert (ladderEdge (by omega))).2.raised := by
  have hn : 0 < n := by omega
  let raise (p : Fin k × Fin k) : (ladder n h).Node × Nat :=
    (ladderCell n h 0 (2 * p.1), 2 * (n - p.1) + 2 * p.2 + 3)
  have hinjective : Function.Injective raise := by
    rintro ⟨i, j⟩ ⟨i', j'⟩ heq
    have hcell : ladderCell n h 0 (2 * i) = ladderCell n h 0 (2 * i') := congrArg Prod.fst heq
    have hlevel : 2 * (n - i.val) + 2 * j.val + 3 = 2 * (n - i'.val) + 2 * j'.val + 3 := congrArg Prod.snd heq
    have hrow : 2 * i.val = 2 * i'.val := by
      rw [← y_ladderCell (h := h) 0 (y := 2 * i.val) (by omega), hcell]
      exact y_ladderCell 0 (by omega)
    rw [Prod.mk.injEq, Fin.ext_iff, Fin.ext_iff]
    omega
  have hcard : (Finset.univ.image raise).card = k * k := by
    rw [Finset.card_image_of_injective _ hinjective, Finset.card_univ, Fintype.card_prod, Fintype.card_fin]
  rw [← hcard]
  apply (sound_beforeLast (ladder n h)).card_le_raised
  intro p hp
  obtain ⟨⟨i, j⟩, -, rfl⟩ := Finset.mem_image.mp hp
  constructor
  · have hwalk := walk_foot (h := h) hn (m := n - i) (j := j) (by omega) (by omega)
    rwa [show n - (n - i.val) = i by omega] at hwalk
  · have hupper := longest_ladder_le (h := h) hn (i := i) (by omega)
    have hlower := le_longest_ladder (h := h) hn
    show (beforeLast (ladder n h)).longest.get (ladderCell n h 0 (2 * i)) <
      (beforeLast (ladder n h)).longest.get (ladderCell n h 3 (2 * n - 1)) + 1 + (2 * (n - i) + 2 * j + 3)
    omega

end Terrain

/-! ### A terrain that is not built -/

namespace Checked

open Grid Terrain

theorem build_ladder_eq_none {n : Nat} (h : n < 2 ^ 59) {k : Nat} (hkn : 2 * k ≤ n) (hk : UInt64.size ≤ k * k) :
    build (ladder n h) = none := by
  have hpos : 0 < k := Nat.pos_of_ne_zero (by rintro rfl; contradiction)
  have hedges := length_edges_le (ladder n h)
  have hsize : (ladder n h).size = 4 * (2 * n + 1) := rfl
  rw [build_eq (by rw [UInt64.size]; omega), if_neg]
  intro hword
  have hlast : ((beforeLast (ladder n h)).insert (ladderEdge (by omega))).2 ∈
      (Terrain.bare (ladder n h)).insertions (ladder n h).edges := by
    rw [← dropLast_edges_ladder (h := h) (by omega), insertions_append]
    exact List.mem_append_right _ List.mem_cons_self
  have hraised := mul_self_le_raised_ladder (h := h) hpos hkn
  have := hword _ hlast
  omega

/-- The ladder with 2 ^ 34 + 1 rows has a text, but its terrain is not built: one edge brings about more raises than a
word counts. -/
theorem build_eq_none_of_parse_ladder :
    let g := ladder (2 ^ 33) (by decide)
    g.text.utf8ByteSize < 2 ^ 63 ∧ parse g.text = .ok g ∧ build g = none := by
  intro g
  have hw : g.width = 4 := rfl
  have hh : g.height = 2 * 2 ^ 33 + 1 := rfl
  refine ⟨?_, parse_text (by omega) (by omega), build_ladder_eq_none (by decide) (k := 2 ^ 32) (by decide) (by decide)⟩
  apply (utf8ByteSize_text_le (by omega) (by omega)).trans_lt
  rw [hw, hh]
  decide

end Checked

end Downhill
