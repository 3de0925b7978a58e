import Downhill.Grid.Reshape
import Downhill.Proofs.Histogram
import Downhill.Proofs.Part
import Downhill.Proofs.Report

/-!
# Mirrored and transposed terrains

To mirror or to transpose a grid gives each cell a new place, and cells are neighbours there if they were before. The
scan then meets the edges in another order and from other sides, but each cell keeps the length of its longest descent
and stays a summit or not, and a report on the new grid is the old one, its cells moved to their new places.

* `Terrain.Rearrangement.report`   : the report on a terrain with its cells at new places;
* `Grid.keeps_mirrored_transposed` : mirrored and transposed grids.
-/

namespace Downhill

variable {g h : Grid} {s : g.Node → h.Node}

/-! ### Reports with their cells moved -/

/-- What a report says of a peak, the cells moved by `s`. -/
structure Peak.IsImage (s : g.Node → h.Node) (peak peak' : Peak) : Prop where
  cell : ∃ v, peak.cell = .ofNode g v ∧ peak'.cell = .ofNode h (s v)
  drop_eq : peak'.drop = peak.drop
  lowest_eq : peak'.lowest = peak.lowest
  levels : List.Forall₂ (fun level level' => ∃ cells : List g.Node,
    level = cells.map (Cell.ofNode g) ∧ level'.Perm ((cells.map s).map (Cell.ofNode h))) peak.levels peak'.levels

/-- A report with the same numbers, and with the same peaks but for their order, the cells moved by `s`. -/
structure Report.IsImage (s : g.Node → h.Node) (report report' : Report) : Prop where
  nodes_eq : report'.nodes = report.nodes
  edges_eq : report'.edges = report.edges
  summits_eq : report'.summits = report.summits
  longest_eq : report'.longest = report.longest
  maxDrop_eq : report'.maxDrop = report.maxDrop
  alternatives_eq : report'.alternatives = report.alternatives
  peaks : ∃ peaks, List.Forall₂ (Peak.IsImage s) report.peaks peaks ∧ peaks.Perm report'.peaks

private theorem Peak.isImage_ofTrace {trace : Trace g} {trace' : Trace h} (ht : Trace.IsImage s trace trace') :
    Peak.IsImage s (.ofTrace trace) (.ofTrace trace') where
  cell := ⟨trace.summit, rfl, congrArg (Cell.ofNode h) ht.summit_eq⟩
  drop_eq := ht.drop_eq
  lowest_eq := ht.lowest_eq
  levels := by
    show List.Forall₂ _ (trace.levels.map (List.map (Cell.ofNode g))) (trace'.levels.map (List.map (Cell.ofNode h)))
    rw [List.forall₂_map_left_iff, List.forall₂_map_right_iff]
    refine ht.levels.imp ?_
    intro level level' hlevel
    exact ⟨level, rfl, hlevel.map _⟩

namespace Terrain

/-- All cells of a terrain at other places, with the same edges between them. -/
structure Rearrangement (s : g.Node → h.Node) (t : Terrain g) (t' : Terrain h) : Prop where
  isPart : IsPart s t t'
  surjective : Function.Surjective s
  sound : t.Sound
  sound' : t'.Sound

namespace Rearrangement

variable {t : Terrain g} {t' : Terrain h}

private theorem nodes_perm (hr : Rearrangement s t t') : h.nodes.Perm (g.nodes.map s) := by
  rw [List.perm_ext_iff_of_nodup h.nodup_nodes (g.nodup_nodes.map hr.isPart.injective)]
  intro w
  obtain ⟨v, rfl⟩ := hr.surjective w
  exact iff_of_true (Grid.mem_nodes _) (List.mem_map_of_mem (Grid.mem_nodes v))

private theorem size_eq (hr : Rearrangement s t t') : h.size = g.size := by
  simpa [Grid.nodes] using hr.nodes_perm.length_eq

private theorem longest_eq (hr : Rearrangement s t t') (v : g.Node) : t'.longest.get (s v) = t.longest.get v :=
  hr.isPart.longest_eq hr.sound hr.sound' v

private theorem edgeCount_eq (hr : Rearrangement s t t') : t'.edgeCount = t.edgeCount :=
  (hr.nodes_perm.flatMap_right _).length_eq.trans hr.isPart.length_flatMap_down

private theorem summits_perm (hr : Rearrangement s t t') : t'.summits.Perm (t.summits.map s) :=
  hr.isPart.filter_summit hr.sound hr.sound' ▸ hr.nodes_perm.filter _

private theorem summitLengths_perm (hr : Rearrangement s t t') : t'.summitLengths.Perm t.summitLengths :=
  hr.isPart.map_longest_summits hr.sound hr.sound' ▸ hr.summits_perm.map _

private theorem maxLength_eq (hr : Rearrangement s t t') : t'.maxLength?.getD 0 = t.maxLength?.getD 0 := by
  have hrange : Set.range t'.longest.get = Set.range t.longest.get := by
    rw [← hr.surjective.range_comp]
    exact congrArg Set.range (funext hr.longest_eq)
  exact (hrange ▸ isGreatest_longest hr.sound').unique (isGreatest_longest hr.sound)

private theorem peaks_perm (hr : Rearrangement s t t') : (t'.peaks none).Perm ((t.peaks none).map s) := by
  have hnodup : ∀ {g : Grid} (t : Terrain g), (t.peaks none).Nodup :=
    fun t => (pairwise_peaks t none).imp fun hlt => ne_of_lt hlt
  rw [List.perm_ext_iff_of_nodup (hnodup t') ((hnodup t).map hr.isPart.injective)]
  intro w
  obtain ⟨v, rfl⟩ := hr.surjective w
  rw [List.mem_map_of_injective hr.isPart.injective, mem_peaks_none hr.sound', mem_peaks_none hr.sound, hr.longest_eq,
    hr.maxLength_eq]

private theorem drops_eq (hr : Rearrangement s t t') (n : Nat) : t'.drops n = t.drops n := by
  ext d
  exact hr.surjective.exists.trans hr.isPart.exists_drop_iff

private theorem maxDrop_eq (hr : Rearrangement s t t') (alternatives : Nat) (withLevels : Bool) :
    (t'.report alternatives withLevels).maxDrop = (t.report alternatives withLevels).maxDrop := by
  have hmax := isGreatest_report_maxDrop hr.sound' alternatives withLevels
  rw [hr.maxLength_eq, hr.drops_eq] at hmax
  exact Int.ofNat_inj.mp (hmax.unique (isGreatest_report_maxDrop hr.sound alternatives withLevels))

theorem report (hr : Rearrangement s t t') (alternatives : Nat) (withLevels : Bool) :
    Report.IsImage s (t.report alternatives withLevels) (t'.report alternatives withLevels) where
  nodes_eq := hr.size_eq
  edges_eq := hr.edgeCount_eq
  summits_eq := by
    show t'.summits.length = t.summits.length
    rw [hr.summits_perm.length_eq, List.length_map]
  longest_eq := hr.maxLength_eq
  maxDrop_eq := hr.maxDrop_eq alternatives withLevels
  alternatives_eq := by
    show List.map _ (shorterLengths (t'.maxLength?.getD 0) alternatives) = List.map _ (shorterLengths _ alternatives)
    rw [hr.maxLength_eq]
    apply List.map_congr_left
    intro length _
    rw [LengthCount.mk.injEq, histogram, histogram, lookup_histogramOf, lookup_histogramOf,
      hr.summitLengths_perm.count_eq]
    exact ⟨rfl, rfl⟩
  peaks := by
    rw [report_peaks, report_peaks, hr.maxLength_eq]
    refine ⟨((t.peaks none).map s).map fun w => .ofTrace (t'.trace w (t.maxLength?.getD 0) withLevels), ?_,
      (hr.peaks_perm.map _).symm⟩
    rw [List.forall₂_map_left_iff, List.forall₂_map_right_iff, List.forall₂_map_right_iff, List.forall₂_same]
    intro v _
    exact Peak.isImage_ofTrace (hr.isPart.trace hr.longest_eq v _ withLevels)

end Rearrangement

end Terrain

/-! ### New places for the cells of a grid -/

/-- The cells of a grid at new places, with the elevations and the neighbours that they had. -/
structure Grid.Rearrangement (s : g.Node → h.Node) : Prop where
  injective : Function.Injective s
  size_eq : h.size = g.size
  elevation_eq (v : g.Node) : h.elevation (s v) = g.elevation v
  adjacent_iff (v u : g.Node) : h.Adjacent (s v) (s u) ↔ g.Adjacent v u

namespace Grid.Rearrangement

private theorem bijective (hr : Rearrangement s) : Function.Bijective s := by
  rw [Fintype.bijective_iff_injective_and_card, Fintype.card_fin, Fintype.card_fin]
  exact ⟨hr.injective, hr.size_eq.symm⟩

private theorem build (hr : Rearrangement s) : Terrain.Rearrangement s (Terrain.build g) (Terrain.build h) where
  isPart := by
    refine IsPart.build ⟨hr.injective, hr.elevation_eq, hr.adjacent_iff, ?_⟩
    intro v w _ hout
    obtain ⟨u, hu⟩ := hr.bijective.2 w
    exact absurd hu (hout u)
  surjective := hr.bijective.2
  sound := Terrain.Reachable.build.sound
  sound' := Terrain.Reachable.build.sound

end Grid.Rearrangement

namespace Grid

/-- The place of a cell in the mirrored grid: from column `x` it goes to column `width - 1 - x` of its row. -/
def mirrorNode (g : Grid) (v : g.Node) : g.mirrored.Node :=
  g.mirrored.node ⟨(g.x v).rev, (g.x v).rev.isLt⟩ ⟨g.y v, y_lt v⟩

/-- The place of a cell in the transposed grid: from column `x` of row `y` it goes to column `y` of row `x`. -/
def transposeNode (g : Grid) (v : g.Node) : g.transposed.Node :=
  g.transposed.node ⟨g.y v, y_lt v⟩ ⟨g.x v, x_lt v⟩

private theorem x_mirrorNode (v : g.Node) : (g.mirrored.x (g.mirrorNode v)).val = g.width - (g.x v + 1) := by
  rw [mirrorNode, x_node, Fin.val_rev]

private theorem y_mirrorNode (v : g.Node) : (g.mirrored.y (g.mirrorNode v)).val = g.y v := by
  rw [mirrorNode, y_node]

private theorem x_transposeNode (v : g.Node) : (g.transposed.x (g.transposeNode v)).val = g.y v := by
  rw [transposeNode, x_node]

private theorem y_transposeNode (v : g.Node) : (g.transposed.y (g.transposeNode v)).val = g.x v := by
  rw [transposeNode, y_node]

private theorem rearrangement_mirrorNode (g : Grid) : Rearrangement g.mirrorNode where
  injective := by
    apply injective_of_x_y
    intro v u hx hy
    rw [x_mirrorNode, x_mirrorNode] at hx
    rw [y_mirrorNode, y_mirrorNode] at hy
    omega
  size_eq := rfl
  elevation_eq v :=
    calc g.mirrored.elevation (g.mirrorNode v) = (g.cell (g.x v).rev.rev (g.y v)).toInt :=
          congrArg Int64.toInt (cell_mirrored g _ _)
      _ = g.elevation v := by rw [Fin.rev_rev, ← elevation_node, node_x_y]
  adjacent_iff v u := by
    rw [adjacent_iff_val, adjacent_iff_val, x_mirrorNode, x_mirrorNode, y_mirrorNode, y_mirrorNode]
    omega

private theorem rearrangement_transposeNode (g : Grid) : Rearrangement g.transposeNode where
  injective := by
    apply injective_of_x_y
    intro v u hx hy
    rw [x_transposeNode, x_transposeNode] at hx
    rw [y_transposeNode, y_transposeNode] at hy
    exact ⟨hy, hx⟩
  size_eq := Nat.mul_comm g.height g.width
  elevation_eq v :=
    calc g.transposed.elevation (g.transposeNode v) = (g.cell (g.x v) (g.y v)).toInt :=
          congrArg Int64.toInt (cell_transposed g _ _)
      _ = g.elevation v := by rw [← elevation_node, node_x_y]
  adjacent_iff v u := by
    rw [adjacent_iff_val, adjacent_iff_val, x_transposeNode, x_transposeNode, y_transposeNode, y_transposeNode]
    exact or_comm

end Grid

/-- What stays the same where the cells of a grid are at new places: the length of the longest descent from each cell,
which cells are summits, and each report, but for the order of the peaks and of the cells of a level. -/
structure Grid.Keeps (s : g.Node → h.Node) : Prop where
  bijective : Function.Bijective s
  longest_eq (v : g.Node) : (Terrain.build h).longest.get (s v) = (Terrain.build g).longest.get v
  summit_eq (v : g.Node) : (Terrain.build h).summit.get (s v) = (Terrain.build g).summit.get v
  report (alternatives : Nat) (withLevels : Bool) : Report.IsImage s
    ((Terrain.build g).report alternatives withLevels) ((Terrain.build h).report alternatives withLevels)

private theorem Grid.Rearrangement.keeps (hr : Rearrangement s) : Keeps s where
  bijective := hr.bijective
  longest_eq := hr.build.longest_eq
  summit_eq := hr.build.isPart.summit_eq hr.build.sound hr.build.sound'
  report := hr.build.report

/-- A grid that is mirrored or transposed keeps its longest descents, its summits and its report, each cell at its new
place. -/
theorem Grid.keeps_mirrored_transposed (g : Grid) : Keeps g.mirrorNode ∧ Keeps g.transposeNode :=
  ⟨g.rearrangement_mirrorNode.keeps, g.rearrangement_transposeNode.keeps⟩

end Downhill
