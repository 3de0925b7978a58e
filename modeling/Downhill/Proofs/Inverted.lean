import Downhill.Proofs.Comparisons

/-!
# Terrains upside down

To turn a terrain upside down is to reverse all its edges. A descent is then the way back, with as many edges and with
its ends as far apart in elevation. So the longest descents have as many edges as before and the same greatest drop, and
the sinks with an edge up have become the summits.

* `down_build_inverted`, `up_build_inverted` : the two families of lists are exchanged;
* `report_inverted`                          : the report on a terrain upside down.
-/

namespace Downhill

/-- A walk back. -/
private theorem Walk.reverse {α : Type} {r s : α → α → Prop} (hrs : ∀ a b, r a b → s b a) {n : Nat} {a b : α}
    (h : Walk r n a b) : Walk s n b a := by
  induction h with
  | nil a => exact .nil a
  | cons hr _ ih => exact ih.trans (.single (hrs _ _ hr))

/-- No word is too low or too high to be turned upside down. -/
private theorem toInt_neg_one_sub (z : Int64) : (-1 - z).toInt = -1 - z.toInt := by
  have hmin := Int64.minValue_le_toInt z
  have hmax := Int64.toInt_le z
  rw [Int64.toInt_minValue] at hmin
  rw [Int64.toInt_maxValue] at hmax
  have hone : (-1 : Int64).toInt = -1 := by decide
  rw [Int64.toInt_sub, hone, Int.bmod_eq_of_le]
  · omega
  · omega

variable {g : Grid}

namespace Grid

/-- The same terrain upside down. -/
abbrev inverted (g : Grid) : Grid :=
  g.withCells (g.cells.map fun z => -1 - z)

private theorem elevation_inverted (v : g.Node) : g.inverted.elevation v = -1 - g.elevation v := by
  have hcell : g.inverted.cells.get v = -1 - g.cells.get v := Vector.getElem_map ..
  rw [elevation, hcell, toInt_neg_one_sub]
  rfl

end Grid

namespace Terrain

theorem down_build_inverted (v : g.Node) : (build g.inverted).down.get v = (build g).up.get v := by
  rw [down_build_eq_filter, up_build_eq_filter]
  apply List.filter_congr
  intro u _
  rw [decide_eq_decide, Grid.elevation_inverted, Grid.elevation_inverted]
  omega

theorem up_build_inverted (v : g.Node) : (build g.inverted).up.get v = (build g).down.get v := by
  rw [up_build_eq_filter, down_build_eq_filter]
  apply List.filter_congr
  intro u _
  rw [decide_eq_decide, Grid.elevation_inverted, Grid.elevation_inverted]
  omega

private theorem descends_build_inverted {v u : g.Node} : (build g.inverted).Descends v u ↔ (build g).Descends u v := by
  rw [Descends, down_build_inverted]
  exact mem_up_iff Reachable.build.sound.toLinked

private theorem walk_build_inverted {n : Nat} {v u : g.Node} :
    Walk (build g.inverted).Descends n v u ↔ Walk (build g).Descends n u v :=
  ⟨.reverse fun _ _ => descends_build_inverted.mp, .reverse fun _ _ => descends_build_inverted.mpr⟩

private theorem maxLength_build_inverted (g : Grid) :
    (build g.inverted).maxLength?.getD 0 = (build g).maxLength?.getD 0 := by
  have hlengths : {n | ∃ v u, Walk (build g.inverted).Descends n v u} = {n | ∃ v u, Walk (build g).Descends n v u} := by
    ext n
    constructor
    · rintro ⟨v, u, hw⟩
      exact ⟨u, v, walk_build_inverted.mp hw⟩
    · rintro ⟨v, u, hw⟩
      exact ⟨u, v, walk_build_inverted.mpr hw⟩
  have hgreatest := isGreatest_walk_maxLength (Reachable.build (g := g.inverted)).sound
  rw [hlengths] at hgreatest
  exact hgreatest.unique (isGreatest_walk_maxLength Reachable.build.sound)

private theorem drops_build_inverted (g : Grid) (n : Nat) : (build g.inverted).drops n = (build g).drops n := by
  have hdrop : ∀ v u : g.Node,
      g.inverted.elevation v - g.inverted.elevation u = g.elevation u - g.elevation v := by
    intro v u
    rw [Grid.elevation_inverted, Grid.elevation_inverted]
    omega
  ext d
  constructor
  · rintro ⟨v, u, hw, hd⟩
    exact ⟨u, v, walk_build_inverted.mp hw, (hdrop v u).symm.trans hd⟩
  · rintro ⟨v, u, hw, hd⟩
    exact ⟨u, v, walk_build_inverted.mpr hw, (hdrop u v).trans hd⟩

private theorem maxDrop_build_inverted (g : Grid) (alternatives : Nat) (withLevels : Bool) :
    ((build g.inverted).report alternatives withLevels).maxDrop =
      ((build g).report alternatives withLevels).maxDrop := by
  have hgreatest := isGreatest_report_maxDrop (Reachable.build (g := g.inverted)).sound alternatives withLevels
  rw [maxLength_build_inverted, drops_build_inverted] at hgreatest
  exact Int.ofNat_inj.mp (hgreatest.unique (isGreatest_report_maxDrop Reachable.build.sound alternatives withLevels))

private theorem edgeCount_build_inverted (g : Grid) : (build g.inverted).edgeCount = (build g).edgeCount := by
  rw [edgeCount_build, edgeCount_build, Grid.length_edges, Grid.length_edges]
  congr 1
  apply Finset.filter_congr
  intro p _
  rw [Grid.elevation_inverted, Grid.elevation_inverted]
  refine and_congr_right fun _ => and_congr_right fun _ => ?_
  omega

/-- The summits upside down are the sinks with an edge up. -/
private theorem summits_build_inverted (g : Grid) :
    (build g.inverted).summits =
      g.nodes.filter fun v => (build g).down.get v = [] ∧ (build g).up.get v ≠ [] := by
  apply List.filter_congr
  intro v _
  have hsummit := (Reachable.build (g := g.inverted)).sound.summit_iff v
  rw [up_build_inverted, down_build_inverted] at hsummit
  rw [Bool.eq_iff_iff, hsummit, decide_eq_true_iff]

end Terrain

/-- If each elevation `z` of a grid becomes `-1 - z`, the longest descents keep their length and their greatest drop,
and the sinks with an edge up become the summits. -/
theorem Grid.report_inverted (g : Grid) (alternatives : Nat) (withLevels : Bool) :
    let report := (Terrain.build g).report alternatives withLevels
    let report' := (Terrain.build g.inverted).report alternatives withLevels
    (∀ v : g.Node, g.inverted.elevation v = -1 - g.elevation v) ∧ report'.nodes = report.nodes ∧
      report'.edges = report.edges ∧ report'.longest = report.longest ∧ report'.maxDrop = report.maxDrop ∧
      report'.summits =
        g.nodes.countP fun v => (Terrain.build g).down.get v = [] ∧ (Terrain.build g).up.get v ≠ [] := by
  intro report report'
  have hnodes : report'.nodes = g.size := rfl
  refine ⟨elevation_inverted, hnodes, Terrain.edgeCount_build_inverted g, Terrain.maxLength_build_inverted g,
    Terrain.maxDrop_build_inverted g alternatives withLevels, ?_⟩
  rw [List.countP_eq_length_filter, ← Terrain.summits_build_inverted]
  rfl

end Downhill
