import Downhill.Proofs.Report
import Downhill.Proofs.Neighbours

/-!
# Only comparisons of neighbours matter

The scan of a grid looks at elevations only to compare those of two neighbours. So other elevations on the same cells,
if each two neighbours compare as before, give the same edges in the same order. The lengths and the summits depend on
the edges alone, and the levels of a trace on edges and lengths, so a report on such a grid differs only in what it says
of elevations.

* `build_withCells`     : the terrain on other elevations;
* `build_eq_of_compare` : two grids in which neighbours compare the same way.
-/

namespace Downhill

variable {g : Grid}

namespace Grid

/-- The same cells at other elevations. -/
abbrev withCells (g : Grid) (cells : Table Int64 g.size) : Grid :=
  { g with cells := cells }

private theorem exists_eq_withCells {g h : Grid} (hw : h.width = g.width) (hh : h.height = g.height) :
    ∃ cells, h = g.withCells cells := by
  obtain ⟨w, k, c, _, _, _⟩ := g
  obtain ⟨w', k', c', _, _, _⟩ := h
  simp only at hw hh
  subst hw hh
  exact ⟨c', rfl⟩

end Grid

namespace Terrain

/-! ### Terrains on other elevations -/

variable {cells : Table Int64 g.size}

/-- The same terrain on other elevations. -/
def withCells (t : Terrain g) (cells : Table Int64 g.size) : Terrain (g.withCells cells) where
  down := t.down
  up := t.up
  longest := t.longest
  summit := t.summit

theorem build_withCells (h : ∀ v u, g.Adjacent v u →
    compare ((g.withCells cells).elevation v) ((g.withCells cells).elevation u) =
      compare (g.elevation v) (g.elevation u)) :
    build (g.withCells cells) = (build g).withCells cells := by
  -- the lists of a cell are made of the same neighbours, sorted out by the same comparisons
  have hlt : ∀ {v u}, g.Adjacent v u →
      ((g.withCells cells).elevation v < (g.withCells cells).elevation u ↔ g.elevation v < g.elevation u) := by
    intro v u hadj
    rw [← compare_lt_iff_lt, h v u hadj, compare_lt_iff_lt]
  have hdown : (build (g.withCells cells)).down = (build g).down := by
    apply Table.ext_get
    intro v
    rw [down_build_eq_filter, down_build_eq_filter]
    apply List.filter_congr
    intro u hu
    exact decide_eq_decide.mpr (hlt (Grid.mem_neighbours.mp hu).symm)
  have hup : (build (g.withCells cells)).up = (build g).up := by
    apply Table.ext_get
    intro v
    rw [up_build_eq_filter, up_build_eq_filter]
    apply List.filter_congr
    intro u hu
    exact decide_eq_decide.mpr (hlt (Grid.mem_neighbours.mp hu))
  have hsound : (build g).Sound := Reachable.build.sound
  have hsound' : (build (g.withCells cells)).Sound := Reachable.build.sound
  have hlongest : (build (g.withCells cells)).longest = (build g).longest := by
    apply Table.ext_get
    intro v
    have hd : ∀ v u, (build (g.withCells cells)).Descends v u ↔ (build g).Descends v u := by
      intro v u
      rw [Descends, hdown]
      rfl
    exact congrFun ((hsound'.height.congr hd).unique hsound.height) v
  have hsummit : (build (g.withCells cells)).summit = (build g).summit := by
    apply Table.ext_get
    intro v
    rw [Bool.eq_iff_iff, hsound'.summit_iff, hup, hdown, hsound.summit_iff]
  unfold withCells
  rw [← hdown, ← hup, ← hlongest, ← hsummit]

private theorem levelsBelow_withCells (t : Terrain g) (n : Nat) (level : List g.Node) :
    (t.withCells cells).levelsBelow n level = t.levelsBelow n level := by
  induction n generalizing level with
  | zero => rfl
  | succ n ih =>
    have hnext : (t.withCells cells).nextLevel n level = t.nextLevel n level := rfl
    rw [levelsBelow, levelsBelow, hnext]
    rcases t.nextLevel n level with _ | ⟨v, vs⟩
    · rfl
    · exact congrArg _ (ih (v :: vs))

private theorem levels_trace_withCells (t : Terrain g) (s : g.Node) (length : Nat) (withLevels : Bool) :
    ((t.withCells cells).trace s length withLevels).levels = (t.trace s length withLevels).levels := by
  cases withLevels with
  | false => rfl
  | true => exact levelsBelow_withCells t length [s]

end Terrain

/-! ### Reports without elevations -/

/-- The place of a cell, as if it had no elevation. -/
def Cell.outline (cell : Cell) : Cell :=
  { cell with elevation := 0 }

private theorem Cell.outline_ofNode (v : g.Node) : (ofNode g v).outline = ⟨g.x v, g.y v, 0⟩ := rfl

/-- A peak and the cells below it, without what depends on their elevations. -/
def Peak.outline (peak : Peak) : Peak where
  cell := peak.cell.outline
  drop := 0
  lowest := 0
  levels := peak.levels.map (List.map Cell.outline)

/-- A report without what depends on elevations: those of cells, drops, and which peak has the greatest one. -/
def Report.outline (report : Report) : Report :=
  { report with
    maxDrop := 0
    bestPeak := none
    peaks := report.peaks.map Peak.outline }

private theorem Peak.outline_ofTrace (trace : Trace g) :
    (ofTrace trace).outline =
      ⟨⟨g.x trace.summit, g.y trace.summit, 0⟩, 0, 0, trace.levels.map (List.map fun v => ⟨g.x v, g.y v, 0⟩)⟩ := by
  simp only [outline, ofTrace, List.map_map, Function.comp_def, Cell.outline_ofNode]

private theorem Terrain.outline_report_withCells {cells : Table Int64 g.size} (t : Terrain g) (alternatives : Nat)
    (withLevels : Bool) :
    ((t.withCells cells).report alternatives withLevels).outline = (t.report alternatives withLevels).outline := by
  have hpeaks : ((t.withCells cells).report alternatives withLevels).peaks.map Peak.outline =
      (t.report alternatives withLevels).peaks.map Peak.outline := by
    rw [report_peaks, report_peaks, List.map_map, List.map_map]
    apply List.map_congr_left
    intro v _
    rw [Function.comp_apply, Function.comp_apply, Peak.outline_ofTrace, Peak.outline_ofTrace, levels_trace_withCells]
    rfl
  unfold Report.outline
  rw [hpeaks]
  rfl

/-- The cell of the same number in another grid of the same size. -/
def Grid.place {g h : Grid} (hw : h.width = g.width) (hh : h.height = g.height) (v : g.Node) : h.Node :=
  v.cast (congrArg₂ (· * ·) hw.symm hh.symm)

/-- If each two neighbouring cells of a grid compare as in another grid of the same size, the terrains and reports of
the two differ only in elevations, drops and the peak with the greatest one. -/
theorem Terrain.build_eq_of_compare {g h : Grid} (hw : h.width = g.width) (hh : h.height = g.height)
    (hcompare : ∀ v u, g.Adjacent v u →
      compare (h.elevation (Grid.place hw hh v)) (h.elevation (Grid.place hw hh u)) =
        compare (g.elevation v) (g.elevation u)) :
    let t := build g
    let t' := build h
    let place : g.Node → h.Node := Grid.place hw hh
    (∀ v, t'.down.get (place v) = (t.down.get v).map place) ∧ (∀ v, t'.up.get (place v) = (t.up.get v).map place) ∧
      (∀ v, t'.longest.get (place v) = t.longest.get v) ∧ (∀ v, t'.summit.get (place v) = t.summit.get v) ∧
      t'.histogram = t.histogram ∧
      (∀ v length withLevels, (t'.trace (place v) length withLevels).levels =
        (t.trace v length withLevels).levels.map (List.map place)) ∧
      ∀ alternatives withLevels,
        (t'.report alternatives withLevels).outline = (t.report alternatives withLevels).outline := by
  obtain ⟨cells, rfl⟩ := Grid.exists_eq_withCells hw hh
  intro t t' place
  have hplace : place = id := rfl
  have ht : t' = t.withCells cells := build_withCells hcompare
  rw [hplace, ht]
  simp only [List.map_id, List.map_id_fun]
  exact ⟨fun _ => rfl, fun _ => rfl, fun _ => rfl, fun _ => rfl, rfl, levels_trace_withCells t,
    outline_report_withCells t⟩

/-- A deeper valley, in which the other one of the two peaks is the higher above the sink. -/
theorem Terrain.build_eq_of_compare_valley :
    let deeper := Grid.valley.withCells #v[30, 20, -7, 0, 1]
    let place : Grid.valley.Node → deeper.Node := Grid.place rfl rfl
    (∀ v u, Grid.valley.Adjacent v u →
      compare (deeper.elevation (place v)) (deeper.elevation (place u)) =
        compare (Grid.valley.elevation v) (Grid.valley.elevation u)) ∧
      ((build deeper).report 3 true).outline = ((build Grid.valley).report 3 true).outline ∧
      ((build deeper).report 3 true).maxDrop = 37 ∧ ((build Grid.valley).report 3 true).maxDrop = 8 := by
  intro deeper place
  have hcompare : ∀ v u, Grid.valley.Adjacent v u →
      compare (deeper.elevation (place v)) (deeper.elevation (place u)) =
        compare (Grid.valley.elevation v) (Grid.valley.elevation u) := by
    unfold Grid.Adjacent
    decide
  obtain ⟨_, _, _, _, _, _, hreport⟩ := build_eq_of_compare (g := Grid.valley) (h := deeper) rfl rfl hcompare
  exact ⟨hcompare, hreport 3 true, by decide, by decide⟩

end Downhill
