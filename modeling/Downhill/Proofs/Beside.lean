import Downhill.Grid.Reshape
import Downhill.Proofs.Histogram
import Downhill.Proofs.Part
import Downhill.Proofs.Report
import Mathlib.Order.Bounds.Lattice

/-!
# Grids side by side

Two grids of one height whose touching columns are equal can stand side by side. No step down crosses the seam, so each
of the two keeps its edges, lengths and summits, and a report on the whole adds up or takes the greater of what reports
on the two say.

* `Terrain.Union.lookup_histogram`, `Terrain.Union.maxDrop_eq` : a terrain that is made up of two parts;
* `Grid.report_beside`                                         : the report on two grids side by side.
-/

namespace Downhill

variable {a b c : Grid} {f : a.Node → c.Node} {f' : b.Node → c.Node}

/-! ### Terrains of two parts -/

namespace Terrain

/-- The terrain `t` is made up of its parts `u` and `v`. -/
structure Union (f : a.Node → c.Node) (f' : b.Node → c.Node) (u : Terrain a) (v : Terrain b)
    (t : Terrain c) : Prop where
  isPart_left : IsPart f u t
  isPart_right : IsPart f' v t
  nodes_perm : c.nodes.Perm (a.nodes.map f ++ b.nodes.map f')
  sound_left : u.Sound
  sound_right : v.Sound
  sound : t.Sound

namespace Union

variable {u : Terrain a} {v : Terrain b} {t : Terrain c}

private theorem exists_iff (h : Union f f' u v t) {p : c.Node → Prop} :
    (∃ w, p w) ↔ (∃ x, p (f x)) ∨ ∃ y, p (f' y) := by
  constructor
  · rintro ⟨w, hw⟩
    have hmem := h.nodes_perm.mem_iff.mp (Grid.mem_nodes w)
    rw [List.mem_append, List.mem_map, List.mem_map] at hmem
    rcases hmem with ⟨x, -, rfl⟩ | ⟨y, -, rfl⟩
    · exact .inl ⟨x, hw⟩
    · exact .inr ⟨y, hw⟩
  · rintro (⟨x, hx⟩ | ⟨y, hy⟩)
    · exact ⟨_, hx⟩
    · exact ⟨_, hy⟩

private theorem edgeCount_eq (h : Union f f' u v t) : t.edgeCount = u.edgeCount + v.edgeCount := by
  rw [← h.isPart_left.length_flatMap_down, ← h.isPart_right.length_flatMap_down, ← List.length_append,
    ← List.flatMap_append]
  exact (h.nodes_perm.flatMap_right _).length_eq

private theorem summits_perm (h : Union f f' u v t) : t.summits.Perm (u.summits.map f ++ v.summits.map f') := by
  rw [← h.isPart_left.filter_summit h.sound_left h.sound, ← h.isPart_right.filter_summit h.sound_right h.sound,
    ← List.filter_append]
  exact h.nodes_perm.filter _

private theorem summitLengths_perm (h : Union f f' u v t) :
    t.summitLengths.Perm (u.summitLengths ++ v.summitLengths) := by
  rw [← h.isPart_left.map_longest_summits h.sound_left h.sound,
    ← h.isPart_right.map_longest_summits h.sound_right h.sound, ← List.map_append]
  exact h.summits_perm.map _

theorem lookup_histogram (h : Union f f' u v t) (n : Nat) :
    (t.histogram.lookup n).getD 0 = (u.histogram.lookup n).getD 0 + (v.histogram.lookup n).getD 0 := by
  simp only [histogram, lookup_histogramOf]
  rw [h.summitLengths_perm.count_eq, List.count_append]

private theorem maxLength_eq (h : Union f f' u v t) :
    t.maxLength?.getD 0 = max (u.maxLength?.getD 0) (v.maxLength?.getD 0) := by
  have hrange : Set.range t.longest.get = Set.range u.longest.get ∪ Set.range v.longest.get := by
    ext n
    simp only [Set.mem_union, Set.mem_range, h.exists_iff, h.isPart_left.longest_eq h.sound_left h.sound,
      h.isPart_right.longest_eq h.sound_right h.sound]
  have hmax := (isGreatest_longest h.sound_left).union (isGreatest_longest h.sound_right)
  exact (hrange ▸ isGreatest_longest h.sound).unique hmax

/-- A descent of a terrain of two parts is a descent of one of them. -/
private theorem drops_eq (h : Union f f' u v t) (n : Nat) : t.drops n = u.drops n ∪ v.drops n := by
  ext d
  exact h.exists_iff.trans (or_congr h.isPart_left.exists_drop_iff h.isPart_right.exists_drop_iff)

end Union

/-- No descent has more edges than the longest. -/
private theorem drops_eq_empty {t : Terrain c} (h : t.Sound) {n : Nat} (hn : t.maxLength?.getD 0 < n) :
    t.drops n = ∅ := by
  rw [Set.eq_empty_iff_forall_notMem]
  rintro d ⟨w, e, hw, -⟩
  have := (isGreatest_walk_maxLength h).2 ⟨w, e, hw⟩
  omega

namespace Union

variable {u : Terrain a} {v : Terrain b} {t : Terrain c}

theorem maxDrop_eq (h : Union f f' u v t) (alternatives : Nat) (withLevels : Bool) :
    (t.report alternatives withLevels).maxDrop =
      if v.maxLength?.getD 0 < u.maxLength?.getD 0 then (u.report alternatives withLevels).maxDrop
      else if u.maxLength?.getD 0 < v.maxLength?.getD 0 then (v.report alternatives withLevels).maxDrop
      else max (u.report alternatives withLevels).maxDrop (v.report alternatives withLevels).maxDrop := by
  have hmax := isGreatest_report_maxDrop h.sound alternatives withLevels
  have hleft := isGreatest_report_maxDrop h.sound_left alternatives withLevels
  have hright := isGreatest_report_maxDrop h.sound_right alternatives withLevels
  rw [h.maxLength_eq, h.drops_eq] at hmax
  apply Int.ofNat_inj.mp
  split
  · next hlt =>
    rw [max_eq_left hlt.le, drops_eq_empty h.sound_right hlt, Set.union_empty] at hmax
    exact hmax.unique hleft
  · split
    · next hlt =>
      rw [max_eq_right hlt.le, drops_eq_empty h.sound_left hlt, Set.empty_union] at hmax
      exact hmax.unique hright
    · have heq : u.maxLength?.getD 0 = v.maxLength?.getD 0 := by omega
      rw [heq, max_self] at hmax
      rw [heq] at hleft
      have hunion := hmax.unique (hleft.union hright)
      omega

end Union

end Terrain

/-! ### Two grids side by side -/

namespace Grid

/-- Two grids that can stand side by side: they have the same height, fewer cells together than there are 64-bit words,
and the last column of the one is the first column of the other. -/
structure Abut (a b : Grid) : Prop where
  height_eq : a.height = b.height
  addressable : (a.width + b.width) * a.height < UInt64.size
  cell_eq (y : Fin a.height) :
    a.cell ⟨a.width - 1, Nat.sub_one_lt_of_lt a.width_pos⟩ y = b.cell ⟨0, b.width_pos⟩ (y.cast height_eq)

/-- The grid with `a` on the left and `b` on the right. -/
def beside (h : Abut a b) : Grid :=
  ofFn (a.width + b.width) a.height (Nat.add_pos_left a.width_pos _) a.height_pos h.addressable fun x y =>
    Fin.addCases (fun x => a.cell x y) (fun x => b.cell x (y.cast h.height_eq)) x

private theorem cell_beside_left (h : Abut a b) (x : Fin a.width) (y : Fin a.height) :
    (beside h).cell ⟨x, Nat.lt_add_right _ x.isLt⟩ ⟨y, y.isLt⟩ = a.cell x y :=
  (cell_ofFn (Nat.add_pos_left a.width_pos _) a.height_pos h.addressable _ (x.castAdd b.width) y).trans
    (Fin.addCases_left x)

private theorem cell_beside_right (h : Abut a b) (x : Fin b.width) (y : Fin b.height) :
    (beside h).cell ⟨a.width + x, Nat.add_lt_add_left x.isLt _⟩ ⟨y, (y.cast h.height_eq.symm).isLt⟩ = b.cell x y :=
  (cell_ofFn (Nat.add_pos_left a.width_pos _) a.height_pos h.addressable _ (x.natAdd a.width)
    (y.cast h.height_eq.symm)).trans (Fin.addCases_right x)

namespace Abut

/-- The place of a cell of the grid on the left. -/
def leftNode (h : Abut a b) (v : a.Node) : (beside h).Node :=
  (beside h).node ⟨a.x v, Nat.lt_add_right _ (x_lt v)⟩ ⟨a.y v, y_lt v⟩

/-- The place of a cell of the grid on the right. -/
def rightNode (h : Abut a b) (v : b.Node) : (beside h).Node :=
  (beside h).node ⟨a.width + b.x v, Nat.add_lt_add_left (x_lt v) _⟩ ⟨b.y v, (y_lt v).trans_eq h.height_eq.symm⟩

variable (h : Abut a b)

private theorem x_leftNode (v : a.Node) : ((beside h).x (h.leftNode v)).val = a.x v := by
  rw [leftNode, x_node]

private theorem y_leftNode (v : a.Node) : ((beside h).y (h.leftNode v)).val = a.y v := by
  rw [leftNode, y_node]

private theorem x_rightNode (v : b.Node) : ((beside h).x (h.rightNode v)).val = a.width + b.x v := by
  rw [rightNode, x_node]

private theorem y_rightNode (v : b.Node) : ((beside h).y (h.rightNode v)).val = b.y v := by
  rw [rightNode, y_node]

private theorem elevation_leftNode (v : a.Node) : (beside h).elevation (h.leftNode v) = a.elevation v := by
  rw [leftNode, elevation_node, cell_beside_left, ← elevation_node, node_x_y]

private theorem elevation_rightNode (v : b.Node) : (beside h).elevation (h.rightNode v) = b.elevation v := by
  rw [rightNode, elevation_node, cell_beside_right, ← elevation_node, node_x_y]

private theorem injective_leftNode : Function.Injective h.leftNode := by
  apply injective_of_x_y
  intro v u hx hy
  rw [x_leftNode, x_leftNode] at hx
  rw [y_leftNode, y_leftNode] at hy
  exact ⟨hx, hy⟩

private theorem injective_rightNode : Function.Injective h.rightNode := by
  apply injective_of_x_y
  intro v u hx hy
  rw [x_rightNode, x_rightNode] at hx
  rw [y_rightNode, y_rightNode] at hy
  omega

/-- Each cell is one of the grid on the left or of the grid on the right. -/
private theorem exists_leftNode_or_rightNode (w : (beside h).Node) :
    (∃ v, h.leftNode v = w) ∨ ∃ u, h.rightNode u = w := by
  have hx : ((beside h).x w).val < a.width + b.width := ((beside h).x w).isLt
  have hy : ((beside h).y w).val < a.height := ((beside h).y w).isLt
  by_cases hlt : ((beside h).x w).val < a.width
  · refine .inl ⟨a.node ⟨(beside h).x w, hlt⟩ ⟨(beside h).y w, hy⟩, ext_x_y (Fin.ext ?_) (Fin.ext ?_)⟩
    · rw [x_leftNode, x_node]
    · rw [y_leftNode, y_node]
  · refine .inr ⟨b.node ⟨(beside h).x w - a.width, by omega⟩ ⟨(beside h).y w, h.height_eq ▸ hy⟩,
      ext_x_y (Fin.ext ?_) (Fin.ext ?_)⟩
    · rw [x_rightNode, x_node, Nat.add_sub_of_le (Nat.le_of_not_lt hlt)]
    · rw [y_rightNode, y_node]

private theorem nodes_perm : (beside h).nodes.Perm (a.nodes.map h.leftNode ++ b.nodes.map h.rightNode) := by
  have hnodup : (a.nodes.map h.leftNode ++ b.nodes.map h.rightNode).Nodup := by
    refine List.nodup_append'.mpr ⟨a.nodup_nodes.map h.injective_leftNode, b.nodup_nodes.map h.injective_rightNode, ?_⟩
    intro w hleft hright
    obtain ⟨v, -, rfl⟩ := List.mem_map.mp hleft
    obtain ⟨u, -, heq⟩ := List.mem_map.mp hright
    have hx := x_rightNode h u
    rw [heq, x_leftNode] at hx
    omega
  rw [List.perm_ext_iff_of_nodup (nodup_nodes _) hnodup]
  intro w
  refine iff_of_true (mem_nodes w) (List.mem_append.mpr ?_)
  rcases h.exists_leftNode_or_rightNode w with ⟨v, rfl⟩ | ⟨u, rfl⟩
  · exact .inl (List.mem_map_of_mem (mem_nodes v))
  · exact .inr (List.mem_map_of_mem (mem_nodes u))

/-- Neighbours across the seam have the same elevation. -/
private theorem elevation_eq_of_adjacent {v : a.Node} {u : b.Node}
    (hadj : (beside h).Adjacent (h.leftNode v) (h.rightNode u)) :
    b.elevation u = a.elevation v := by
  rw [adjacent_iff_val, x_leftNode, y_leftNode, x_rightNode, y_rightNode] at hadj
  -- they stand in the last column of the one and in the first of the other, in the same row
  have hxv : a.x v = ⟨a.width - 1, Nat.sub_one_lt_of_lt a.width_pos⟩ := by
    apply Fin.ext
    show (a.x v).val = a.width - 1
    omega
  have hxu : b.x u = ⟨0, b.width_pos⟩ := by
    apply Fin.ext
    show (b.x u).val = 0
    omega
  have hyu : b.y u = (a.y v).cast h.height_eq := by
    apply Fin.ext
    show (b.y u).val = a.y v
    omega
  rw [elevation, elevation, get_cells, get_cells, hxu, hyu, hxv, h.cell_eq]

private theorem isPart_left : IsPart h.leftNode where
  injective := h.injective_leftNode
  elevation_eq := h.elevation_leftNode
  adjacent_iff v u := by
    rw [adjacent_iff_val, adjacent_iff_val, x_leftNode, x_leftNode, y_leftNode, y_leftNode]
  level_border {v w} hadj hout := by
    rcases h.exists_leftNode_or_rightNode w with ⟨u, hu⟩ | ⟨u, rfl⟩
    · exact absurd hu (hout u)
    · rw [elevation_leftNode, elevation_rightNode]
      exact h.elevation_eq_of_adjacent hadj

private theorem isPart_right : IsPart h.rightNode where
  injective := h.injective_rightNode
  elevation_eq := h.elevation_rightNode
  adjacent_iff v u := by
    rw [adjacent_iff_val, adjacent_iff_val, x_rightNode, x_rightNode, y_rightNode, y_rightNode]
    omega
  level_border {u w} hadj hout := by
    rcases h.exists_leftNode_or_rightNode w with ⟨v, rfl⟩ | ⟨v, hv⟩
    · rw [elevation_leftNode, elevation_rightNode]
      exact (h.elevation_eq_of_adjacent hadj.symm).symm
    · exact absurd hv (hout v)

private theorem union_build :
    Terrain.Union h.leftNode h.rightNode (Terrain.build a) (Terrain.build b) (Terrain.build (beside h)) where
  isPart_left := h.isPart_left.build
  isPart_right := h.isPart_right.build
  nodes_perm := h.nodes_perm
  sound_left := Terrain.Reachable.build.sound
  sound_right := Terrain.Reachable.build.sound
  sound := Terrain.Reachable.build.sound

end Abut

/-- Two grids side by side have the edges and the summits of both, and as many summits of each length as both. The
longest descents are those of the grid with the longer ones, or of both, and so is the greatest drop. -/
theorem report_beside (h : Abut a b) (alternatives : Nat) (withLevels : Bool) :
    let left := (Terrain.build a).report alternatives withLevels
    let right := (Terrain.build b).report alternatives withLevels
    let whole := (Terrain.build (beside h)).report alternatives withLevels
    whole.edges = left.edges + right.edges ∧
      whole.summits = left.summits + right.summits ∧
      (∀ length, ((Terrain.build (beside h)).histogram.lookup length).getD 0 =
        ((Terrain.build a).histogram.lookup length).getD 0 + ((Terrain.build b).histogram.lookup length).getD 0) ∧
      whole.longest = max left.longest right.longest ∧
      whole.maxDrop =
        if right.longest < left.longest then left.maxDrop
        else if left.longest < right.longest then right.maxDrop
        else max left.maxDrop right.maxDrop := by
  intro left right whole
  have hunion := h.union_build
  have hsummits : (Terrain.build (beside h)).summits.length =
      (Terrain.build a).summits.length + (Terrain.build b).summits.length := by
    rw [hunion.summits_perm.length_eq, List.length_append, List.length_map, List.length_map]
  exact ⟨hunion.edgeCount_eq, hsummits, hunion.lookup_histogram, hunion.maxLength_eq,
    hunion.maxDrop_eq alternatives withLevels⟩

/-- A slope up to the first cell of a valley: both have descents of two edges, those of the valley drop deeper. -/
theorem report_beside_valley :
    ∃ h : Abut Grid.stairs.mirrored Grid.valley,
      let whole := (Terrain.build (beside h)).report 1 true
      whole.edges = 2 + 4 ∧ whole.summits = 1 + 2 ∧ ((Terrain.build (beside h)).histogram.lookup 2).getD 0 = 1 + 2 ∧
        whole.longest = 2 ∧ whole.maxDrop = 8 := by
  have h : Abut Grid.stairs.mirrored Grid.valley := ⟨by decide, by decide, by decide⟩
  obtain ⟨hedges, hsummits, hhistogram, hlongest, hdrop⟩ := report_beside h 1 true
  refine ⟨h, hedges.trans (by decide), hsummits.trans (by decide), (hhistogram 2).trans (by decide),
    hlongest.trans (by decide), hdrop.trans (by decide)⟩

end Grid

end Downhill
