import Downhill.Proofs.Peaks
import Mathlib.Data.List.Forall2

/-!
# What a report says

A report on a reachable terrain is exact: the length that it gives is the greatest of all cells, its peaks are the
cells from which a descent of that length starts, in the order of their numbers, and what it says of a peak is said in
terms of the descents of that length from the peak (`Peak.Describes`). The best peak is the first with the greatest
drop.

* `pairwise_peaks`      : the peaks in the order of their numbers;
* `describes_trace`     : what the trace of a cell says of the longest descents from it;
* `report_of_reachable` : the report as a whole.
-/

namespace Downhill

variable {g : Grid}

/-- A row of cells that falls to the third one from both ends. -/
def Grid.valley : Grid where
  width := 5
  height := 1
  cells := #v[3, 2, 1, 5, 9]
  width_pos := by decide
  height_pos := Nat.one_pos
  addressable := by decide

/-- What a peak of a report says of the descents of a given length from the cell `p`: their lowest end, the drop to
it and, if levels were asked for, the cells that they reach with each of their edges. -/
structure Peak.Describes (t : Terrain g) (length : Nat) (withLevels : Bool) (p : g.Node) (peak : Peak) : Prop where
  cell_eq : peak.cell = .ofNode g p
  isLeast_lowest : IsLeast {z | ∃ e, Walk t.Descends length p e ∧ g.elevation e = z} peak.lowest
  drop_eq : (peak.drop : Int) = g.elevation p - peak.lowest
  levels_eq_nil : withLevels = false → peak.levels = []
  length_levels : withLevels = true → peak.levels.length = length
  level_eq {k : Nat} (hk : k < peak.levels.length) : ∃ cells : List g.Node,
    peak.levels[k] = cells.map (Cell.ofNode g) ∧ cells ≠ [] ∧ cells.Pairwise (· < ·) ∧
      ∀ v, v ∈ cells ↔ ∃ e, Walk t.Descends (k + 1) p v ∧ Walk t.Descends (length - (k + 1)) v e

namespace Terrain

variable {t : Terrain g}

/-! ### Peaks and their traces -/

theorem pairwise_peaks (t : Terrain g) (target : Option Nat) : (t.peaks target).Pairwise (· < ·) := by
  unfold peaks
  split
  · exact ((List.pairwise_lt_finRange g.size).filter _).filter _
  · exact List.Pairwise.nil

private theorem mem_peaks_none_iff_exists_walk (h : t.Sound) (hne : t.maxLength?.getD 0 ≠ 0) {p : g.Node} :
    p ∈ t.peaks none ↔ ∃ e, Walk t.Descends (t.maxLength?.getD 0) p e := by
  rw [mem_peaks_none h]
  constructor
  · rintro ⟨hp, _⟩
    rw [← hp]
    exact h.height.exists_walk p
  · rintro ⟨e, hw⟩
    have hp := longest_eq_of_walk_maxLength h hw
    exact ⟨hp, by omega⟩

/-- A cell lies on a longest descent if its length is what is left of it. -/
private theorem longest_add_eq_iff (h : t.Sound) {p v : g.Node} {k : Nat} (hk : k ≤ t.longest.get p)
    (hw : Walk t.Descends k p v) :
    t.longest.get v + k = t.longest.get p ↔ ∃ e, Walk t.Descends (t.longest.get p - k) v e := by
  constructor
  · intro hv
    obtain ⟨e, he⟩ := h.height.exists_walk v
    rw [show t.longest.get p - k = t.longest.get v by omega]
    exact ⟨e, he⟩
  · rintro ⟨e, he⟩
    have := h.height.add_le hw
    have := h.height.add_le he
    omega

private theorem mem_getElem_levelsBelow_iff (h : t.Sound) {p : g.Node} {k : Nat}
    (hk : k < (t.levelsBelow (t.longest.get p) [p]).length) {v : g.Node} :
    v ∈ (t.levelsBelow (t.longest.get p) [p])[k] ↔
      ∃ e, Walk t.Descends (k + 1) p v ∧ Walk t.Descends (t.longest.get p - (k + 1)) v e := by
  have hlevel : ∀ u ∈ [p], t.longest.get u = t.longest.get p := by simp
  have hlength := length_levelsBelow h.height hlevel (by simp)
  rw [mem_getElem_levelsBelow h.height hlevel (by simp)]
  constructor
  · rintro ⟨hv, u, hu, hw⟩
    rw [List.mem_singleton.mp hu] at hw
    obtain ⟨e, he⟩ := (longest_add_eq_iff h (by omega) hw).mp hv
    exact ⟨e, hw, he⟩
  · rintro ⟨e, hw, he⟩
    exact ⟨(longest_add_eq_iff h (by omega) hw).mpr ⟨e, he⟩, p, List.mem_singleton_self p, hw⟩

theorem describes_trace (h : t.Sound) (p : g.Node) (withLevels : Bool) :
    Peak.Describes t (t.longest.get p) withLevels p (.ofTrace (t.trace p (t.longest.get p) withLevels)) := by
  have hlevel : ∀ u ∈ [p], t.longest.get u = t.longest.get p := by simp
  have hleast := isLeast_lowest_trace h p withLevels
  have hlevels : (Peak.ofTrace (t.trace p (t.longest.get p) withLevels)).levels =
      (if withLevels then t.levelsBelow (t.longest.get p) [p] else []).map (List.map (Cell.ofNode g)) := rfl
  refine ⟨rfl, hleast, drop_trace t p _ withLevels, ?_, ?_, ?_⟩
  · rintro rfl
    rw [hlevels]
    rfl
  · rintro rfl
    rw [hlevels, if_pos rfl, List.length_map, length_levelsBelow h.height hlevel (by simp)]
  · intro k hk
    cases withLevels with
    | false => simp [hlevels] at hk
    | true =>
      simp only [hlevels, if_true, List.length_map, List.getElem_map] at hk ⊢
      have hmem : (t.levelsBelow (t.longest.get p) [p])[k] ∈ t.levelsBelow (t.longest.get p) [p] := List.getElem_mem hk
      exact ⟨_, rfl, ne_nil_of_mem_levelsBelow h.height hlevel (by simp) hmem, pairwise_of_mem_levelsBelow hmem,
        fun v => mem_getElem_levelsBelow_iff h hk⟩

/-! ### The report -/

theorem report_peaks (t : Terrain g) (alternatives : Nat) (withLevels : Bool) :
    (t.report alternatives withLevels).peaks =
      (t.peaks none).map fun v => .ofTrace (t.trace v (t.maxLength?.getD 0) withLevels) :=
  List.map_map

/-- The best peak of a report with peaks is the first of those with the greatest drop. -/
private theorem exists_best_report (t : Terrain g) (hne : t.peaks none ≠ []) (alternatives : Nat) (withLevels : Bool) :
    let report := t.report alternatives withLevels
    ∃ before best after, report.peaks = before ++ best :: after ∧ report.bestPeak = some best.cell ∧
      report.maxDrop = best.drop ∧ (∀ peak ∈ before, peak.drop < best.drop) ∧
      ∀ peak ∈ after, peak.drop ≤ best.drop := by
  intro report
  obtain ⟨before, p, after, hsplit, hbest, hbefore, hafter⟩ := exists_deepest? t hne (t.maxLength?.getD 0) withLevels
  have hdrop : report.maxDrop =
      ((t.deepest? (t.peaks none) (t.maxLength?.getD 0) withLevels).map Trace.drop).getD 0 := rfl
  have hcell : report.bestPeak =
      (t.deepest? (t.peaks none) (t.maxLength?.getD 0) withLevels).map fun trace => .ofNode g trace.summit := rfl
  have hpeaks : report.peaks = _ := report_peaks t alternatives withLevels
  rw [hsplit, List.map_append, List.map_cons] at hpeaks
  rw [hbest] at hdrop hcell
  refine ⟨_, _, _, hpeaks, hcell, hdrop, ?_, ?_⟩
  · intro peak hpeak
    obtain ⟨v, hv, rfl⟩ := List.mem_map.mp hpeak
    exact hbefore v hv
  · intro peak hpeak
    obtain ⟨v, hv, rfl⟩ := List.mem_map.mp hpeak
    exact hafter v hv

private theorem report_of_peaks_eq_nil (hnil : t.peaks none = []) (alternatives : Nat) (withLevels : Bool) :
    let report := t.report alternatives withLevels
    report.maxDrop = 0 ∧ report.bestPeak = none ∧ report.peaks = [] := by
  intro report
  have hbest : Trace.deepest? ((t.peaks none).map fun v => t.trace v (t.maxLength?.getD 0) withLevels) = none := by
    rw [hnil]
    rfl
  refine ⟨?_, ?_, ?_⟩
  · show ((Trace.deepest? _).map Trace.drop).getD 0 = 0
    rw [hbest]
    rfl
  · show (Trace.deepest? _).map _ = none
    rw [hbest]
    rfl
  · rw [report_peaks, hnil, List.map_nil]

/-- A report on a reachable terrain gives the greatest length of all cells, as its peaks the cells where descents of
that length start, and as its best peak the first one with the greatest drop. -/
theorem report_of_reachable (h : t.Reachable) (alternatives : Nat) (withLevels : Bool) :
    let report := t.report alternatives withLevels
    IsGreatest (Set.range t.longest.get) report.longest ∧
      (report.longest = 0 → report.maxDrop = 0 ∧ report.bestPeak = none ∧ report.peaks = []) ∧
      (report.longest ≠ 0 →
        (∃ peaks : List g.Node, peaks.Pairwise (· < ·) ∧ (∀ p, p ∈ peaks ↔ ∃ e, Walk t.Descends report.longest p e) ∧
          List.Forall₂ (Peak.Describes t report.longest withLevels) peaks report.peaks) ∧
        IsGreatest {d | ∃ peak ∈ report.peaks, peak.drop = d} report.maxDrop ∧
        ∃ before best after, report.peaks = before ++ best :: after ∧ report.bestPeak = some best.cell ∧
          best.drop = report.maxDrop ∧ ∀ peak ∈ before, peak.drop < report.maxDrop) := by
  intro report
  have hsound := h.sound
  have hgreatest : IsGreatest (Set.range t.longest.get) report.longest := isGreatest_longest hsound
  have hpeaks : report.peaks = _ := report_peaks t alternatives withLevels
  refine ⟨hgreatest, ?_, ?_⟩
  · intro hzero
    have hnil : t.peaks none = [] := by
      apply List.eq_nil_iff_forall_not_mem.mpr
      intro p hp
      obtain ⟨hp, hne⟩ := (mem_peaks_none hsound).mp hp
      exact hne (hp.trans hzero)
    exact report_of_peaks_eq_nil hnil alternatives withLevels
  · intro hne
    obtain ⟨⟨top, htop⟩, _⟩ := hgreatest
    have hnonempty : t.peaks none ≠ [] :=
      List.ne_nil_of_mem ((mem_peaks_none hsound (v := top)).mpr ⟨htop, fun h0 => hne (htop.symm.trans h0)⟩)
    obtain ⟨before, best, after, hsplit, hcell, hdrop, hbefore, hafter⟩ :=
      exists_best_report t hnonempty alternatives withLevels
    refine ⟨⟨t.peaks none, pairwise_peaks t none, fun p => mem_peaks_none_iff_exists_walk hsound hne, ?_⟩, ?_, ?_⟩
    · rw [hpeaks, List.forall₂_map_right_iff, List.forall₂_same]
      intro p hp
      have hpl : t.longest.get p = report.longest := ((mem_peaks_none hsound).mp hp).1
      rw [← hpl, show t.maxLength?.getD 0 = t.longest.get p from hpl.symm]
      exact describes_trace hsound p withLevels
    · refine ⟨⟨best, by rw [hsplit]; simp, hdrop.symm⟩, ?_⟩
      rintro d ⟨peak, hpeak, rfl⟩
      rw [hsplit, List.mem_append, List.mem_cons] at hpeak
      rw [hdrop]
      rcases hpeak with hpeak | rfl | hpeak
      · exact Nat.le_of_lt (hbefore peak hpeak)
      · exact Nat.le_refl _
      · exact hafter peak hpeak
    · refine ⟨before, best, after, hsplit, hcell, hdrop.symm, ?_⟩
      intro peak hpeak
      rw [hdrop]
      exact hbefore peak hpeak

/-- Two peaks above one sink, the second of them higher. -/
theorem report_of_reachable_valley :
    let report := (build Grid.valley).report 0 true
    (build Grid.valley).Reachable ∧ report.longest = 2 ∧ report.maxDrop = 8 ∧
      (∃ peaks : List Grid.valley.Node, peaks.Pairwise (· < ·) ∧
        (∀ p, p ∈ peaks ↔ ∃ e, Walk (build Grid.valley).Descends report.longest p e) ∧
        List.Forall₂ (Peak.Describes (build Grid.valley) report.longest true) peaks report.peaks) ∧
      ∃ before best after, report.peaks = before ++ best :: after ∧ report.bestPeak = some best.cell ∧
        best.drop = report.maxDrop ∧ ∀ peak ∈ before, peak.drop < report.maxDrop := by
  intro report
  have hlongest : report.longest = 2 := by decide
  have hpeaks := (report_of_reachable (g := Grid.valley) .build 0 true).2.2 (by decide)
  exact ⟨.build, hlongest, by decide, hpeaks.1, hpeaks.2.2⟩

end Terrain

end Downhill
