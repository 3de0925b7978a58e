import Downhill.Proofs.Scan
import Mathlib.Data.List.Sort

/-!
# The neighbours of a cell, in order

The scan compares a cell with the neighbours to its left and above when it comes to the cell, and with those to its
right and below when it comes to them, which is later and in this order. Each comparison of two unequal cells gives an
edge, which is appended to a list of both. So the lists of a cell hold its neighbours in the order left, above, right,
below, the lower ones and the higher ones apart.

* `mem_neighbours`, `nodup_neighbours`         : the cells in the list of neighbours;
* `met_eq_neighbours`                          : the cells that the scan compares a cell with, in order;
* `down_build_eq_filter`, `up_build_eq_filter` : the lists of edges of the terrain of a grid;
* `build_neighbours`                           : these lists, and the number of edges.
-/

namespace Downhill

/-! ### The cells of an edge -/

namespace Edge

variable {g : Grid}

/-- The two cells of an edge, in the order of the scan. -/
def cells (e : Edge g) : g.Node × g.Node :=
  (min e.upper e.lower, max e.upper e.lower)

private theorem cells_cases (e : Edge g) :
    e.upper < e.lower ∧ e.cells = (e.upper, e.lower) ∨ e.lower < e.upper ∧ e.cells = (e.lower, e.upper) := by
  rcases lt_or_gt_of_ne e.upper_ne_lower with h | h
  · exact .inl ⟨h, Prod.ext (min_eq_left h.le) (max_eq_right h.le)⟩
  · exact .inr ⟨h, Prod.ext (min_eq_right h.le) (max_eq_left h.le)⟩

/-- Only one of the two edges between two cells leads down. -/
private theorem injective_cells : Function.Injective (cells (g := g)) := by
  intro e e' heq
  have hd := e.descends
  have hd' := e'.descends
  rcases e.cells_cases with ⟨_, he⟩ | ⟨_, he⟩ <;> rcases e'.cells_cases with ⟨_, he'⟩ | ⟨_, he'⟩
  all_goals
    rw [he, he', Prod.mk.injEq] at heq
    obtain ⟨hfirst, hsecond⟩ := heq
  · exact Edge.ext hfirst hsecond
  · rw [hfirst, hsecond] at hd
    exact absurd hd (Int.lt_asymm hd')
  · rw [hfirst, hsecond] at hd
    exact absurd hd (Int.lt_asymm hd')
  · exact Edge.ext hsecond hfirst

end Edge

namespace Grid

/-! ### Neighbours by their offsets -/

/-- The cell `dx` columns to the right and `dy` rows further down, if the grid has it. -/
def offset? (g : Grid) (v : g.Node) (dx dy : Int) : Option g.Node :=
  if 0 ≤ (g.x v).val + dx ∧ 0 ≤ (g.y v).val + dy then
    g.node? ((g.x v).val + dx).toNat ((g.y v).val + dy).toNat
  else none

/-- The neighbours of a cell: those to the left, above, to the right and below, in this order. -/
def neighbours (g : Grid) (v : g.Node) : List g.Node :=
  [(-1, 0), (0, -1), (1, 0), (0, 1)].filterMap fun offset => g.offset? v offset.1 offset.2

variable {g : Grid} {u v w : g.Node}

private theorem node?_eq_some_iff {x y : Nat} : g.node? x y = some v ↔ (g.x v).val = x ∧ (g.y v).val = y := by
  rw [node?, Option.dite_none_right_eq_some]
  constructor
  · rintro ⟨h, heq⟩
    obtain rfl := Option.some.inj heq
    rw [x_node, y_node]
    exact ⟨rfl, rfl⟩
  · rintro ⟨rfl, rfl⟩
    exact ⟨⟨x_lt v, y_lt v⟩, congrArg some (node_x_y v)⟩

private theorem offset?_eq_some_iff {dx dy : Int} :
    g.offset? v dx dy = some u ↔ ((g.x u).val : Int) = (g.x v).val + dx ∧ ((g.y u).val : Int) = (g.y v).val + dy := by
  rw [offset?]
  split
  · rw [node?_eq_some_iff]
    omega
  · simp only [reduceCtorEq, false_iff]
    omega

/-- The neighbours from which the scan looks at a cell. -/
def ahead (g : Grid) (v : g.Node) : List g.Node :=
  (g.offset? v 1 0).toList ++ (g.offset? v 0 1).toList

private theorem neighbours_eq_append (v : g.Node) : g.neighbours v = g.back v ++ g.ahead v := by
  have hleft : g.left? v = g.offset? v (-1) 0 := by
    ext u
    rw [left?_eq_some_iff, offset?_eq_some_iff, Fin.ext_iff]
    omega
  have habove : g.above? v = g.offset? v 0 (-1) := by
    ext u
    rw [above?_eq_some_iff, offset?_eq_some_iff, Fin.ext_iff]
    omega
  rw [neighbours, List.filterMap_eq_flatMap_toList, back, ahead, hleft, habove]
  simp only [List.flatMap_cons, List.flatMap_nil, List.append_assoc, List.append_nil]

private theorem mem_ahead : w ∈ g.ahead v ↔ v ∈ g.back w := by
  simp only [ahead, mem_back, List.mem_append, Option.mem_toList, offset?_eq_some_iff, left?_eq_some_iff,
    above?_eq_some_iff, Fin.ext_iff]
  omega

theorem mem_neighbours : u ∈ g.neighbours v ↔ g.Adjacent v u := by
  rw [neighbours_eq_append, List.mem_append, mem_ahead, mem_back, mem_back]
  simp only [left?_eq_some_iff, above?_eq_some_iff, adjacent_iff_val, Fin.ext_iff]
  omega

/-- The scan comes to a cell, then to the one to the right, then to the one below. -/
private theorem pairwise_cons_ahead (v : g.Node) : (v :: g.ahead v).Pairwise (· < ·) := by
  refine List.pairwise_cons.mpr ⟨fun w hw => lt_of_mem_back (mem_ahead.mp hw), ?_⟩
  refine List.pairwise_append.mpr ⟨Option.pairwise_toList, Option.pairwise_toList, ?_⟩
  intro u hu w hw
  obtain ⟨hxu, hyu⟩ := offset?_eq_some_iff.mp (Option.mem_toList.mp hu)
  obtain ⟨hxw, hyw⟩ := offset?_eq_some_iff.mp (Option.mem_toList.mp hw)
  have hwidth := x_lt u
  have hrow : (g.y w).val = (g.y u).val + 1 := by omega
  rw [Fin.lt_def, val_eq u, val_eq w, hrow, Nat.succ_mul]
  omega

theorem nodup_neighbours (v : g.Node) : (g.neighbours v).Nodup := by
  have hahead := List.pairwise_cons.mp (pairwise_cons_ahead v)
  rw [neighbours_eq_append, List.nodup_append']
  refine ⟨nodup_back v, hahead.2.imp fun hlt => ne_of_lt hlt, ?_⟩
  intro u hback hu
  exact Fin.lt_asymm (lt_of_mem_back hback) (hahead.1 u hu)

/-! ### The cells that a cell is compared with -/

/-- The other one of two cells, if the first is one of them. -/
def otherEnd (v w u : g.Node) : Option g.Node :=
  if w = v then some u else if u = v then some w else none

/-- The cells that the scan compares a cell with, in the order in which it does. -/
def met (g : Grid) (v : g.Node) : List g.Node :=
  g.nodes.flatMap fun w => (g.back w).flatMap fun u => (otherEnd v w u).toList

private theorem flatMap_filter_eq {α β : Type} {p : α → Bool} {c : α → List β} {l : List α}
    (h : ∀ a ∈ l, p a = false → c a = []) : (l.filter p).flatMap c = l.flatMap c := by
  induction l with
  | nil => rfl
  | cons a l ih =>
    obtain ⟨ha, hl⟩ := List.forall_mem_cons.mp h
    rw [List.filter_cons, List.flatMap_cons, ← ih hl]
    cases hp : p a with
    | false => simp [ha hp]
    | true => simp

/-- When the scan comes to a cell it compares it with all cells that it looks at. -/
private theorem flatMap_otherEnd_self (v : g.Node) :
    ((g.back v).flatMap fun u => (otherEnd v v u).toList) = g.back v := by
  simp [otherEnd]

/-- When the scan comes to another cell it compares only that one with the cell, if it looks at the cell. -/
private theorem flatMap_otherEnd_of_ne (hne : w ≠ v) :
    ((g.back w).flatMap fun u => (otherEnd v w u).toList) = if v ∈ g.back w then [w] else [] := by
  have hother : ∀ u, otherEnd v w u = if u = v then some w else none := fun u => if_neg hne
  rw [← flatMap_filter_eq (p := (· = v)) (by intro u _ hu; simpa [hother] using hu), List.filter_eq,
    (nodup_back w).count]
  split <;> simp [hother]

theorem met_eq_neighbours (v : g.Node) : g.met v = g.neighbours v := by
  have hsorted : g.nodes.filter (· ∈ v :: g.ahead v) = v :: g.ahead v := by
    apply List.Pairwise.eq_of_mem_iff ((List.pairwise_lt_finRange g.size).filter _) (pairwise_cons_ahead v)
    intro w
    rw [List.mem_filter, decide_eq_true_iff]
    exact and_iff_right (List.mem_finRange w)
  have hahead : (g.ahead v).flatMap (fun w => (g.back w).flatMap fun u => (otherEnd v w u).toList) = g.ahead v := by
    refine (List.flatMap_congr fun w hw => ?_).trans (List.flatMap_singleton' _)
    have hv := mem_ahead.mp hw
    rw [flatMap_otherEnd_of_ne (lt_of_mem_back hv).ne', if_pos hv]
  rw [met, ← flatMap_filter_eq (p := (· ∈ v :: g.ahead v)), hsorted, List.flatMap_cons, flatMap_otherEnd_self, hahead,
    neighbours_eq_append]
  intro w _ hw
  rw [decide_eq_false_iff_not, List.mem_cons, not_or, mem_ahead] at hw
  rw [flatMap_otherEnd_of_ne hw.1, if_neg hw.2]

/-! ### The edges of a cell -/

private theorem otherEnd_eq_some_iff {a : g.Node} (hne : a ≠ v) :
    otherEnd v w u = some a ↔ v = w ∧ a = u ∨ v = u ∧ a = w := by
  unfold otherEnd
  constructor
  · intro h
    split at h
    · next hw => exact .inl ⟨hw.symm, (Option.some.inj h).symm⟩
    · split at h
      · next hu => exact .inr ⟨hu.symm, (Option.some.inj h).symm⟩
      · contradiction
  · rintro (⟨rfl, rfl⟩ | ⟨rfl, rfl⟩)
    · rw [if_pos rfl]
    · rw [if_neg hne, if_pos rfl]

/-- A list of edges at a cell, by its comparisons with its neighbours: the list holds the far ends of the edges whose
near end is the cell, and the edge between two cells is entered there if they are in the relation `R`. -/
private theorem map_filter_edges {near far : Edge g → g.Node} {R : g.Node → g.Node → Prop} [DecidableRel R]
    (hne : ∀ v a, R v a → a ≠ v)
    (hends : ∀ v a w u, (∃ e, Edge.between? w u = some e ∧ near e = v ∧ far e = a) ↔
      R v a ∧ (v = w ∧ a = u ∨ v = u ∧ a = w)) (v : g.Node) :
    (g.edges.filter fun e => near e = v).map far = (g.neighbours v).filter fun a => R v a := by
  have hpair : ∀ w u, ((Edge.between? w u).filter fun e => near e = v).map far =
      (otherEnd v w u).filter fun a => R v a := by
    intro w u
    ext a
    simp only [Option.map_eq_some_iff, Option.filter_eq_some_iff, decide_eq_true_iff, and_assoc, hends]
    rw [and_comm]
    exact and_congr_left fun h => (otherEnd_eq_some_iff (hne v a h)).symm
  rw [← met_eq_neighbours, met, edges]
  simp only [edgesBack_eq_filterMap, List.filterMap_eq_flatMap_toList, List.filter_flatMap, List.map_flatMap,
    ← Option.toList_filter, ← Option.toList_map, hpair]

private theorem map_lower_filter_edges (v : g.Node) :
    (g.edges.filter fun e => e.upper = v).map Edge.lower =
      (g.neighbours v).filter fun u => g.elevation u < g.elevation v := by
  apply map_filter_edges (R := fun v u => g.elevation u < g.elevation v)
  · rintro v _ h rfl
    exact Int.lt_irrefl _ h
  · intro v a w u
    constructor
    · rintro ⟨e, he, rfl, rfl⟩
      exact ⟨e.descends, between?_eq_some_iff.mp he⟩
    · rintro ⟨h, hends⟩
      exact ⟨⟨v, a, h⟩, between?_eq_some_iff.mpr hends, rfl, rfl⟩

private theorem map_upper_filter_edges (v : g.Node) :
    (g.edges.filter fun e => e.lower = v).map Edge.upper =
      (g.neighbours v).filter fun u => g.elevation v < g.elevation u := by
  apply map_filter_edges (R := fun v u => g.elevation v < g.elevation u)
  · rintro v _ h rfl
    exact Int.lt_irrefl _ h
  · intro v a w u
    constructor
    · rintro ⟨e, he, rfl, rfl⟩
      exact ⟨e.descends, (between?_eq_some_iff.mp he).symm.imp And.symm And.symm⟩
    · rintro ⟨h, hends⟩
      exact ⟨⟨a, v, h⟩, between?_eq_some_iff.mpr (hends.symm.imp And.symm And.symm), rfl, rfl⟩

/-! ### The number of edges -/

instance (a b : g.Node) : Decidable (g.Adjacent a b) :=
  inferInstanceAs (Decidable (_ ∧ _ ∨ _ ∧ _))

private theorem exists_mem_edges_iff {a b : g.Node} :
    (∃ e ∈ g.edges, e.cells = (a, b)) ↔ a < b ∧ g.Adjacent a b ∧ g.elevation a ≠ g.elevation b := by
  constructor
  · rintro ⟨e, he, heq⟩
    have hadj := mem_edges.mp he
    have hd := e.descends
    rcases e.cells_cases with ⟨hlt, hcells⟩ | ⟨hlt, hcells⟩
    · obtain ⟨rfl, rfl⟩ := Prod.mk.inj (hcells.symm.trans heq)
      exact ⟨hlt, hadj, by omega⟩
    · obtain ⟨rfl, rfl⟩ := Prod.mk.inj (hcells.symm.trans heq)
      exact ⟨hlt, hadj.symm, by omega⟩
  · rintro ⟨hlt, hadj, hne⟩
    rcases Int.lt_or_gt_of_ne hne with h | h
    · exact ⟨⟨b, a, h⟩, mem_edges.mpr hadj.symm, Prod.ext (min_eq_right hlt.le) (max_eq_left hlt.le)⟩
    · exact ⟨⟨a, b, h⟩, mem_edges.mpr hadj, Prod.ext (min_eq_left hlt.le) (max_eq_right hlt.le)⟩

/-- The scan finds as many edges as there are pairs of unequal neighbours. -/
theorem length_edges (g : Grid) :
    g.edges.length = (Finset.univ.filter fun p : g.Node × g.Node =>
      p.1 < p.2 ∧ g.Adjacent p.1 p.2 ∧ g.elevation p.1 ≠ g.elevation p.2).card := by
  rw [← List.length_map (f := Edge.cells), ← List.toFinset_card_of_nodup (g.nodup_edges.map Edge.injective_cells)]
  congr 1
  ext ⟨a, b⟩
  rw [List.mem_toFinset, List.mem_map, exists_mem_edges_iff, Finset.mem_filter]
  exact (and_iff_right (Finset.mem_univ _)).symm

end Grid

namespace Terrain

variable {g : Grid}

theorem down_build_eq_filter (v : g.Node) :
    (build g).down.get v = (g.neighbours v).filter fun u => g.elevation u < g.elevation v := by
  rw [build, down_insertAll, down_bare, List.nil_append, Grid.map_lower_filter_edges]

theorem up_build_eq_filter (v : g.Node) :
    (build g).up.get v = (g.neighbours v).filter fun u => g.elevation v < g.elevation u := by
  rw [build, up_insertAll, up_bare, List.nil_append, Grid.map_upper_filter_edges]

theorem nodup_down_build (v : g.Node) : ((build g).down.get v).Nodup := by
  rw [down_build_eq_filter]
  exact (Grid.nodup_neighbours v).filter _

theorem nodup_up_build (v : g.Node) : ((build g).up.get v).Nodup := by
  rw [up_build_eq_filter]
  exact (Grid.nodup_neighbours v).filter _

private theorem count_down_build (a b : g.Node) :
    ((build g).down.get a).count b + ((build g).down.get b).count a =
      if g.Adjacent a b ∧ g.elevation a ≠ g.elevation b then 1 else 0 := by
  have hcount : ∀ a b, ((build g).down.get a).count b =
      if g.Adjacent a b ∧ g.elevation b < g.elevation a then 1 else 0 := by
    intro a b
    rw [(nodup_down_build a).count]
    exact if_congr descends_build rfl rfl
  have hsymm : g.Adjacent b a ↔ g.Adjacent a b := ⟨Grid.Adjacent.symm, Grid.Adjacent.symm⟩
  rw [hcount, hcount]
  by_cases hadj : g.Adjacent a b
  · simp only [hsymm, hadj, true_and]
    split <;> split <;> split <;> omega
  · simp [hsymm, hadj]

/-- In the terrain of a grid, the edges of a cell lead down to its lower and up to its higher neighbours, in the order
left, above, right, below. There is one edge between each two neighbours of different elevation. -/
theorem build_neighbours (g : Grid) :
    let t := build g
    (∀ v, t.down.get v = (g.neighbours v).filter fun u => g.elevation u < g.elevation v) ∧
      (∀ v, t.up.get v = (g.neighbours v).filter fun u => g.elevation v < g.elevation u) ∧
      (∀ v u, u ∈ g.neighbours v ↔ g.Adjacent v u) ∧
      (∀ a b, (t.down.get a).count b + (t.down.get b).count a =
        if g.Adjacent a b ∧ g.elevation a ≠ g.elevation b then 1 else 0) ∧
      t.edgeCount = (Finset.univ.filter fun p : g.Node × g.Node =>
        p.1 < p.2 ∧ g.Adjacent p.1 p.2 ∧ g.elevation p.1 ≠ g.elevation p.2).card := by
  intro t
  exact ⟨down_build_eq_filter, up_build_eq_filter, fun _ _ => Grid.mem_neighbours, count_down_build,
    (edgeCount_build g).trans g.length_edges⟩

end Terrain

end Downhill
