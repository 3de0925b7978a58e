import Downhill.Grid.Neighbour
import Downhill.Proofs.Sound

/-!
# The edges between neighbours

Two cells are neighbours if their columns or their rows follow each other and they are otherwise the same. The scan
of a grid looks from each cell at the neighbour to the left and the one above, and so finds the edge between each
two neighbours of different elevation, and no other.

* `left?_eq_some_iff`, `above?_eq_some_iff` : where the scan looks;
* `edgesBack_eq_filterMap`                  : its edges at one cell;
* `mem_edges`                               : the edges that it finds;
* `nodup_edges`                             : it finds each of them once;
* `descends_build`                          : the edges of the terrain of a grid.
-/

namespace Downhill

namespace Grid

/-- Two cells that stand side by side in a row, or one above the other in a column. -/
def Adjacent (g : Grid) (a b : g.Node) : Prop :=
  g.y a = g.y b ∧ ((g.x a).val + 1 = g.x b ∨ (g.x b).val + 1 = g.x a) ∨
    g.x a = g.x b ∧ ((g.y a).val + 1 = g.y b ∨ (g.y b).val + 1 = g.y a)

/-- A step from a cell to a strictly lower neighbour. -/
def StepsDown (g : Grid) (a b : g.Node) : Prop :=
  g.Adjacent a b ∧ g.elevation b < g.elevation a

variable {g : Grid}

theorem Adjacent.symm {a b : g.Node} (h : g.Adjacent a b) : g.Adjacent b a := by
  unfold Adjacent at h ⊢
  rcases h with ⟨hy, hx⟩ | ⟨hx, hy⟩
  · exact .inl ⟨hy.symm, hx.symm⟩
  · exact .inr ⟨hx.symm, hy.symm⟩

/-- Neighbours by the numbers of their columns and rows. -/
theorem adjacent_iff_val {a b : g.Node} :
    g.Adjacent a b ↔
      (g.y a).val = g.y b ∧ ((g.x a).val + 1 = g.x b ∨ (g.x b).val + 1 = g.x a) ∨
        (g.x a).val = g.x b ∧ ((g.y a).val + 1 = g.y b ∨ (g.y b).val + 1 = g.y a) := by
  rw [Adjacent, Fin.ext_iff, Fin.ext_iff]

theorem x_lt (v : g.Node) : (g.x v).val < g.width :=
  (g.x v).isLt

theorem y_lt (v : g.Node) : (g.y v).val < g.height :=
  (g.y v).isLt

theorem val_eq (v : g.Node) : v.val = (g.y v).val * g.width + (g.x v).val :=
  (congrArg Fin.val (node_x_y v)).symm

theorem ext_x_y {u v : g.Node} (hx : g.x u = g.x v) (hy : g.y u = g.y v) : u = v := by
  rw [← node_x_y u, ← node_x_y v, hx, hy]

/-- A map of cells is injective if the coordinates of the image of a cell determine those of the cell. -/
theorem injective_of_x_y {h : Grid} {f : g.Node → h.Node}
    (hf : ∀ v u, (h.x (f v)).val = h.x (f u) → (h.y (f v)).val = h.y (f u) →
      (g.x v).val = g.x u ∧ (g.y v).val = g.y u) : Function.Injective f := by
  intro v u heq
  obtain ⟨hx, hy⟩ := hf v u (by rw [heq]) (by rw [heq])
  exact ext_x_y (Fin.ext hx) (Fin.ext hy)

theorem left?_eq_some_iff {u v : g.Node} : g.left? v = some u ↔ (g.x u).val + 1 = g.x v ∧ g.y u = g.y v := by
  rw [← node_x_y v]
  generalize g.y v = y
  obtain ⟨x, hx⟩ := g.x v
  rw [x_node, y_node]
  cases x with
  | zero => simp [left?_node_zero]
  | succ x =>
    rw [left?_node, Option.some.injEq]
    constructor
    · rintro rfl
      rw [x_node, y_node]
      exact ⟨rfl, rfl⟩
    · rintro ⟨hxu, hyu⟩
      apply ext_x_y
      · rw [x_node]
        exact Fin.ext (Nat.succ.inj hxu.symm)
      · rw [y_node, hyu]

theorem above?_eq_some_iff {u v : g.Node} : g.above? v = some u ↔ (g.y u).val + 1 = g.y v ∧ g.x u = g.x v := by
  rw [← node_x_y v]
  generalize g.x v = x
  obtain ⟨y, hy⟩ := g.y v
  rw [x_node, y_node]
  cases y with
  | zero => simp [above?_node_zero]
  | succ y =>
    rw [above?_node, Option.some.injEq]
    constructor
    · rintro rfl
      rw [x_node, y_node]
      exact ⟨rfl, rfl⟩
    · rintro ⟨hyu, hxu⟩
      apply ext_x_y
      · rw [x_node, hxu]
      · rw [y_node]
        exact Fin.ext (Nat.succ.inj hyu.symm)

theorem between?_eq_some_iff {a b : g.Node} {e : Edge g} :
    Edge.between? a b = some e ↔ e.upper = a ∧ e.lower = b ∨ e.upper = b ∧ e.lower = a := by
  rw [Edge.between?, Option.or_eq_some_iff, Edge.ofNodes?_eq_some_iff, Edge.ofNodes?_eq_some_iff]
  apply or_congr_right
  constructor
  · exact fun h => h.2
  · rintro ⟨rfl, rfl⟩
    refine ⟨?_, rfl, rfl⟩
    have := e.descends
    rw [Edge.ofNodes?, dif_neg (by omega)]

/-- The neighbours that the scan looks at from a cell. -/
def back (g : Grid) (v : g.Node) : List g.Node :=
  (g.left? v).toList ++ (g.above? v).toList

theorem edgesBack_eq_filterMap (v : g.Node) : g.edgesBack v = (g.back v).filterMap (Edge.between? v) := by
  rw [edgesBack, back, List.filterMap_eq_flatMap_toList, List.flatMap_append, Option.toList_bind, Option.toList_bind]
  rfl

theorem mem_back {u v : g.Node} : u ∈ g.back v ↔ g.left? v = some u ∨ g.above? v = some u := by
  simp only [back, List.mem_append, Option.mem_toList]

private theorem mem_edgesBack {v : g.Node} {e : Edge g} :
    e ∈ g.edgesBack v ↔ ∃ u ∈ g.back v, e.upper = v ∧ e.lower = u ∨ e.upper = u ∧ e.lower = v := by
  simp only [edgesBack_eq_filterMap, List.mem_filterMap, between?_eq_some_iff]

/-- The scan finds an edge exactly between neighbours. -/
theorem mem_edges {e : Edge g} : e ∈ g.edges ↔ g.Adjacent e.upper e.lower := by
  simp only [edges, List.mem_flatMap, mem_edgesBack, mem_back, left?_eq_some_iff, above?_eq_some_iff, Adjacent]
  constructor
  · intro hex
    rcases hex with ⟨v, -, u, (⟨hx, hy⟩ | ⟨hy, hx⟩), ⟨rfl, rfl⟩ | ⟨rfl, rfl⟩⟩
    · exact .inl ⟨hy.symm, .inr hx⟩
    · exact .inl ⟨hy, .inl hx⟩
    · exact .inr ⟨hx.symm, .inr hy⟩
    · exact .inr ⟨hx, .inl hy⟩
  · -- the edge is found from the right or the lower one of its cells
    intro hadj
    rcases hadj with ⟨hy, hx | hx⟩ | ⟨hx, hy | hy⟩
    · exact ⟨e.lower, mem_nodes _, e.upper, .inl ⟨hx, hy⟩, .inr ⟨rfl, rfl⟩⟩
    · exact ⟨e.upper, mem_nodes _, e.lower, .inl ⟨hx, hy.symm⟩, .inl ⟨rfl, rfl⟩⟩
    · exact ⟨e.lower, mem_nodes _, e.upper, .inr ⟨hy, hx⟩, .inr ⟨rfl, rfl⟩⟩
    · exact ⟨e.upper, mem_nodes _, e.lower, .inr ⟨hy, hx.symm⟩, .inl ⟨rfl, rfl⟩⟩

/-! ### Each edge once -/

private theorem lt_of_left? {u v : g.Node} (h : g.left? v = some u) : u < v := by
  obtain ⟨hx, hy⟩ := left?_eq_some_iff.mp h
  rw [Fin.lt_def, val_eq u, val_eq v, hy]
  omega

private theorem lt_of_above? {u v : g.Node} (h : g.above? v = some u) : u < v := by
  obtain ⟨hy, hx⟩ := above?_eq_some_iff.mp h
  have := g.width_pos
  rw [Fin.lt_def, val_eq u, val_eq v, hx, ← hy, Nat.succ_mul]
  omega

theorem lt_of_mem_back {u v : g.Node} (h : u ∈ g.back v) : u < v :=
  (mem_back.mp h).elim lt_of_left? lt_of_above?

/-- The scan finds an edge at the later of its cells. -/
private theorem max_of_mem_edgesBack {v : g.Node} {e : Edge g} (h : e ∈ g.edgesBack v) : max e.upper e.lower = v := by
  obtain ⟨u, hu, hends⟩ := mem_edgesBack.mp h
  have hlt := lt_of_mem_back hu
  rcases hends with ⟨rfl, rfl⟩ | ⟨rfl, rfl⟩
  · exact max_eq_left hlt.le
  · exact max_eq_right hlt.le

theorem nodup_back (v : g.Node) : (g.back v).Nodup := by
  refine List.nodup_append'.mpr ⟨Option.toList_nodup _, Option.toList_nodup _, ?_⟩
  intro u hleft habove
  have hx := (left?_eq_some_iff.mp (Option.mem_toList.mp hleft)).1
  rw [(above?_eq_some_iff.mp (Option.mem_toList.mp habove)).2] at hx
  omega

private theorem nodup_edgesBack (v : g.Node) : (g.edgesBack v).Nodup := by
  rw [edgesBack_eq_filterMap]
  apply (nodup_back v).filterMap
  intro u u' e he he'
  rcases between?_eq_some_iff.mp he with ⟨hv, hu⟩ | ⟨hu, hv⟩ <;>
    rcases between?_eq_some_iff.mp he' with ⟨hv', hu'⟩ | ⟨hu', hv'⟩
  · exact hu.symm.trans hu'
  · exact absurd (hv.trans hv'.symm) e.upper_ne_lower
  · exact absurd (hv'.trans hv.symm) e.upper_ne_lower
  · exact hu.symm.trans hu'

theorem nodup_nodes (g : Grid) : g.nodes.Nodup :=
  List.nodup_finRange g.size

theorem nodup_edges (g : Grid) : g.edges.Nodup := by
  refine List.nodup_flatMap.mpr ⟨fun v _ => nodup_edgesBack v, ?_⟩
  apply g.nodup_nodes.imp
  intro v v' hne e hv hv'
  exact hne ((max_of_mem_edgesBack hv).symm.trans (max_of_mem_edgesBack hv'))

end Grid

/-- The edges of the terrain of a grid are the steps to strictly lower neighbours. -/
theorem Terrain.descends_build {g : Grid} {v u : g.Node} : (build g).Descends v u ↔ g.StepsDown v u := by
  rw [Descends, build, mem_down_insertAll_bare, Grid.StepsDown]
  constructor
  · intro hex
    obtain ⟨e, he, rfl, rfl⟩ := hex
    exact ⟨Grid.mem_edges.mp he, e.descends⟩
  · intro hstep
    obtain ⟨hadj, hlt⟩ := hstep
    exact ⟨⟨v, u, hlt⟩, Grid.mem_edges.mpr hadj, rfl, rfl⟩

theorem Edge.ext {g : Grid} {e e' : Edge g} (hupper : e.upper = e'.upper) (hlower : e.lower = e'.lower) : e = e' := by
  cases e
  cases e'
  congr

end Downhill
