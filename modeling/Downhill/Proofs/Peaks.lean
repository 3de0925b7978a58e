import Downhill.Proofs.Levels
import Downhill.Report.Basic

/-!
# The longest descents start at summits

From a cell with an edge down one can climb along the edges up, and the climb ends at a summit. So the greatest
length of a summit is the greatest of all lengths, and a cell of that length, unless it is 0, is a summit.

* `exists_summit_walk`       : each cell with an edge down is reached from a summit;
* `isGreatest_longest`       : the longest descents are found by looking at summits alone;
* `isGreatest_report_maxDrop` : the greatest drop of a longest descent.
-/

namespace Downhill.Terrain

variable {g : Grid}

/-- A cell with an edge down is a summit or below one. -/
theorem exists_summit_walk {t : Terrain g} (h : t.Sound) {v : g.Node} (hv : t.down.get v ≠ []) :
    ∃ s n, t.summit.get s = true ∧ Walk t.Descends n s v := by
  -- each cell on the way up has more elevations below it, and there are no more than cells
  induction hn : g.size - (g.below v).card using Nat.strongRecOn generalizing v with
  | ind n ih =>
    by_cases hup : t.up.get v = []
    · exact ⟨v, 0, (h.summit_iff v).mpr ⟨hup, hv⟩, .nil v⟩
    · obtain ⟨u, hu⟩ := List.exists_mem_of_ne_nil _ hup
      have hd := (mem_up_iff h.toLinked).mp hu
      have := Grid.card_below_lt (h.elevation_lt hd)
      have := Grid.card_below_lt_size u
      obtain ⟨s, m, hs, hw⟩ := ih _ (by omega) (List.ne_nil_of_mem hd) rfl
      exact ⟨s, m + 1, hs, hw.trans (.single hd)⟩

/-- The greatest length of a summit, or 0 without summits, is the greatest length of all cells. -/
theorem isGreatest_longest {t : Terrain g} (h : t.Sound) :
    IsGreatest (Set.range t.longest.get) (t.maxLength?.getD 0) := by
  -- a cell of positive length is reached from a summit, which is at least as long
  have hle : ∀ v, t.longest.get v ≠ 0 → ∃ s ∈ t.summits, t.longest.get v ≤ t.longest.get s := by
    intro v hne
    obtain ⟨u, hd, _⟩ := h.height.exists_rel hne
    obtain ⟨s, n, hs, hw⟩ := exists_summit_walk h (List.ne_nil_of_mem hd)
    have := h.height.add_le hw
    exact ⟨s, mem_summits.mpr hs, by omega⟩
  rcases hm : t.maxLength? with _ | m
  · rw [maxLength?, List.max?_eq_none_iff, summitLengths, List.map_eq_nil_iff] at hm
    have hzero : ∀ v, t.longest.get v = 0 := by
      intro v
      apply Classical.byContradiction
      intro hne
      obtain ⟨s, hs, _⟩ := hle v hne
      rw [hm] at hs
      contradiction
    have hsize : 0 < g.size := Nat.mul_pos g.width_pos g.height_pos
    refine ⟨⟨⟨0, hsize⟩, hzero _⟩, ?_⟩
    intro n hn
    obtain ⟨v, rfl⟩ := hn
    exact Nat.le_of_eq (hzero v)
  · rw [maxLength?, List.max?_eq_some_iff] at hm
    obtain ⟨hmem, hmax⟩ := hm
    obtain ⟨s, hs, rfl⟩ := List.mem_map.mp hmem
    refine ⟨⟨s, rfl⟩, ?_⟩
    intro n hn
    obtain ⟨v, rfl⟩ := hn
    show t.longest.get v ≤ t.longest.get s
    by_cases hne : t.longest.get v = 0
    · omega
    · obtain ⟨s', hs', hle'⟩ := hle v hne
      have := hmax _ (List.mem_map_of_mem hs')
      omega

/-- The greatest length of a summit is the greatest number of edges of a descent. -/
theorem isGreatest_walk_maxLength {t : Terrain g} (h : t.Sound) :
    IsGreatest {n | ∃ v u, Walk t.Descends n v u} (t.maxLength?.getD 0) := by
  obtain ⟨⟨v, hv⟩, hle⟩ := isGreatest_longest h
  constructor
  · obtain ⟨u, hw⟩ := h.height.exists_walk v
    exact ⟨v, u, hv ▸ hw⟩
  · intro n hn
    obtain ⟨v, u, hw⟩ := hn
    have := h.height.add_le hw
    have := hle ⟨v, rfl⟩
    omega

theorem longest_ne_zero_of_summit {t : Terrain g} (h : t.Sound) {v : g.Node} (hv : t.summit.get v = true) :
    t.longest.get v ≠ 0 := by
  obtain ⟨u, hu⟩ := List.exists_mem_of_ne_nil _ ((h.summit_iff v).mp hv).2
  have := h.height.lt_of_rel hu
  omega

/-- The cells where the longest descents start are summits, if these have an edge at all. -/
theorem mem_peaks_none {t : Terrain g} (h : t.Sound) {v : g.Node} :
    v ∈ t.peaks none ↔ t.longest.get v = t.maxLength?.getD 0 ∧ t.longest.get v ≠ 0 := by
  have hmax := (isGreatest_longest h).2
  unfold peaks
  rcases hm : t.maxLength? with _ | m
  · simp only [Option.or_none, List.not_mem_nil, Option.getD_none, false_iff, not_and, not_not]
    exact id
  · rw [hm] at hmax
    simp only [Option.none_or, Option.getD_some] at hmax ⊢
    rw [mem_summitsOfLength]
    constructor
    · rintro ⟨hs, hm⟩
      exact ⟨hm, longest_ne_zero_of_summit h hs⟩
    · rintro ⟨rfl, hne⟩
      obtain ⟨u, hd, _⟩ := h.height.exists_rel hne
      refine ⟨(h.summit_iff v).mpr ⟨?_, List.ne_nil_of_mem hd⟩, rfl⟩
      apply List.eq_nil_iff_forall_not_mem.mpr
      intro w hw
      have hlt := h.height.lt_of_rel ((mem_up_iff h.toLinked).mp hw)
      have hle : t.longest.get w ≤ t.longest.get v := hmax ⟨w, rfl⟩
      omega

/-! ### The greatest drop -/

/-- The deepest trace from a list of cells starts at the first of them with the greatest drop. -/
theorem exists_deepest? (t : Terrain g) {cells : List g.Node} (hne : cells ≠ []) (length : Nat) (withLevels : Bool) :
    ∃ before p after, cells = before ++ p :: after ∧
      t.deepest? cells length withLevels = some (t.trace p length withLevels) ∧
      (∀ v ∈ before, (t.trace v length withLevels).drop < (t.trace p length withLevels).drop) ∧
      ∀ v ∈ after, (t.trace v length withLevels).drop ≤ (t.trace p length withLevels).drop := by
  have hmap : (cells.map fun v => t.trace v length withLevels) ≠ [] := mt List.map_eq_nil_iff.mp hne
  obtain ⟨before, best, after, hsplit, hbest, hbefore, hafter⟩ := Trace.exists_deepest? hmap
  obtain ⟨cells', rest, rfl, rfl, hrest⟩ := List.map_eq_append_iff.mp hsplit
  obtain ⟨p, cells'', rfl, rfl, rfl⟩ := List.map_eq_cons_iff.mp hrest
  exact ⟨cells', p, cells'', rfl, hbest, fun v hv => hbefore _ (List.mem_map_of_mem hv),
    fun v hv => hafter _ (List.mem_map_of_mem hv)⟩

/-- No other trace from the cells has a greater drop than the deepest. -/
private theorem exists_mem_deepest? (t : Terrain g) {cells : List g.Node} (hne : cells ≠ []) (length : Nat)
    (withLevels : Bool) :
    ∃ p ∈ cells, t.deepest? cells length withLevels = some (t.trace p length withLevels) ∧
      ∀ v ∈ cells, (t.trace v length withLevels).drop ≤ (t.trace p length withLevels).drop := by
  obtain ⟨before, p, after, rfl, hbest, hbefore, hafter⟩ := exists_deepest? t hne length withLevels
  refine ⟨p, List.mem_append_right _ List.mem_cons_self, hbest, ?_⟩
  intro v hv
  rw [List.mem_append, List.mem_cons] at hv
  rcases hv with hv | rfl | hv
  · exact Nat.le_of_lt (hbefore v hv)
  · exact Nat.le_refl _
  · exact hafter v hv

/-- Without a peak there is no edge, and all lengths are 0. -/
private theorem maxLength_eq_zero_of_peaks_eq_nil {t : Terrain g} (h : t.Sound) (hnil : t.peaks none = []) :
    t.maxLength?.getD 0 = 0 := by
  obtain ⟨⟨top, htop⟩, _⟩ := isGreatest_longest h
  apply Classical.byContradiction
  intro hne
  have hmem := (mem_peaks_none h (v := top)).mpr ⟨htop, by omega⟩
  rw [hnil] at hmem
  contradiction

/-- The first cell of a descent with the greatest number of edges has that length, and is a peak if there is an
edge. -/
theorem longest_eq_of_walk_maxLength {t : Terrain g} (h : t.Sound) {v u : g.Node}
    (hw : Walk t.Descends (t.maxLength?.getD 0) v u) : t.longest.get v = t.maxLength?.getD 0 := by
  have hle : t.longest.get v ≤ t.maxLength?.getD 0 := (isGreatest_longest h).2 ⟨v, rfl⟩
  have := h.height.add_le hw
  omega

/-- The drops of the descents with `n` edges. -/
def drops (t : Terrain g) (n : Nat) : Set Int :=
  {d | ∃ v u, Walk t.Descends n v u ∧ g.elevation v - g.elevation u = d}

/-- The greatest drop in a report is the exact greatest drop of a descent with the greatest number of edges. -/
theorem isGreatest_report_maxDrop {t : Terrain g} (h : t.Sound) (alternatives : Nat) (withLevels : Bool) :
    IsGreatest (t.drops (t.maxLength?.getD 0)) (t.report alternatives withLevels).maxDrop := by
  have hdrop : (t.report alternatives withLevels).maxDrop =
      ((t.deepest? (t.peaks none) (t.maxLength?.getD 0) withLevels).map Trace.drop).getD 0 := rfl
  rw [hdrop]
  by_cases hnil : t.peaks none = []
  · obtain ⟨⟨top, _⟩, _⟩ := isGreatest_longest h
    rw [maxLength_eq_zero_of_peaks_eq_nil h hnil, hnil]
    constructor
    · exact ⟨top, top, .nil top, Int.sub_self _⟩
    · intro d hd
      obtain ⟨v, u, hw, rfl⟩ := hd
      obtain rfl := walk_zero_iff.mp hw
      exact Int.le_of_eq (Int.sub_self _)
  · obtain ⟨p, hp, hbest, hle⟩ := exists_mem_deepest? t hnil (t.maxLength?.getD 0) withLevels
    obtain ⟨hpl, hne⟩ := (mem_peaks_none h).mp hp
    rw [hbest]
    constructor
    · obtain ⟨u, hw, hd⟩ := (isGreatest_drop_trace h p withLevels).1
      rw [hpl] at hw hd
      exact ⟨p, u, hw, hd⟩
    · intro d hd
      obtain ⟨v, u, hw, rfl⟩ := hd
      have hvl := longest_eq_of_walk_maxLength h hw
      have hv : v ∈ t.peaks none := (mem_peaks_none h).mpr ⟨hvl, by omega⟩
      have hdv := (isGreatest_drop_trace h v withLevels).2 ⟨u, hvl.symm ▸ hw, rfl⟩
      rw [hvl] at hdv
      exact hdv.trans (Int.ofNat_le.mpr (hle v hv))

end Downhill.Terrain
