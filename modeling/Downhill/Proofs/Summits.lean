import Downhill.Proofs.Report

/-!
# Looking at summits alone

A cell with an edge up lies below some summit, and is then shorter than it. So the summits hold all lengths that matter:
there is one if there is an edge at all, the longest of them is the longest of all cells, and the cells of that length
are the summits of that length.

* `exists_summit_above`   : a cell with an edge up is below a longer summit;
* `maxLength?_eq_none_iff` : a terrain without summits has no edges;
* `peaks_of_reachable`    : what is found among the summits.
-/

namespace Downhill.Terrain

variable {g : Grid} {t : Terrain g}

theorem exists_summit_above (h : t.Sound) {v : g.Node} (hv : t.up.get v ≠ []) :
    ∃ s n, t.summit.get s = true ∧ Walk t.Descends n s v ∧ t.longest.get v < t.longest.get s := by
  obtain ⟨u, hu⟩ := List.exists_mem_of_ne_nil _ hv
  have hd := (mem_up_iff h.toLinked).mp hu
  obtain ⟨s, n, hs, hw⟩ := exists_summit_walk h (List.ne_nil_of_mem hd)
  have := h.height.add_le hw
  have := h.height.lt_of_rel hd
  exact ⟨s, n + 1, hs, hw.trans (.single hd), by omega⟩

theorem maxLength?_eq_none_iff (h : t.Sound) : t.maxLength? = none ↔ t.edgeCount = 0 := by
  rw [maxLength?, List.max?_eq_none_iff, summitLengths, List.map_eq_nil_iff, List.eq_nil_iff_forall_not_mem,
    edgeCount_eq_zero_iff]
  simp only [mem_summits]
  constructor
  · intro hnone v
    by_contra hv
    obtain ⟨s, _, hs, _⟩ := exists_summit_walk h hv
    exact hnone s hs
  · intro hnone v hv
    exact ((h.summit_iff v).mp hv).2 (hnone v)

private theorem isGreatest_of_maxLength? (h : t.Sound) {length : Nat} (hlength : t.maxLength? = some length) :
    IsGreatest (Set.range t.longest.get) length := by
  have hgreatest := isGreatest_longest h
  rwa [hlength] at hgreatest

/-! ### Peaks -/

private theorem mem_peaks_none_iff_maxLength? {v : g.Node} :
    v ∈ t.peaks none ↔ t.summit.get v = true ∧ t.maxLength? = some (t.longest.get v) := by
  rw [peaks, Option.none_or]
  rcases t.maxLength? with _ | length
  · simp
  · rw [mem_summitsOfLength, Option.some.injEq, eq_comm (a := length)]

/-- In a terrain with an edge the peaks are the cells of the greatest length. -/
private theorem mem_peaks_none_iff_forall_le (h : t.Sound) (hne : t.edgeCount ≠ 0) {v : g.Node} :
    v ∈ t.peaks none ↔ ∀ u, t.longest.get u ≤ t.longest.get v := by
  obtain ⟨⟨top, htop⟩, hmax⟩ := isGreatest_longest h
  rw [mem_peaks_none h, ← htop]
  constructor
  · rintro ⟨hv, _⟩ u
    rw [hv, htop]
    exact hmax ⟨u, rfl⟩
  · intro hv
    have hle : t.longest.get v ≤ t.longest.get top := htop ▸ hmax ⟨v, rfl⟩
    refine ⟨Nat.le_antisymm hle (hv top), ?_⟩
    intro hzero
    apply hne
    rw [edgeCount_eq_zero_iff]
    intro u
    by_contra hu
    obtain ⟨w, hw⟩ := List.exists_mem_of_ne_nil _ hu
    have := h.height.lt_of_rel hw
    have := hv u
    omega

private theorem peaks_zero (h : t.Sound) : t.peaks (some 0) = [] := by
  apply List.eq_nil_iff_forall_not_mem.mpr
  intro v hv
  obtain ⟨hs, hzero⟩ := mem_summitsOfLength.mp hv
  exact longest_ne_zero_of_summit h hs hzero

/-- On a reachable terrain the peaks for a target are the summits of that length, in the order of their numbers.
Without a target they are the cells of the greatest length, if there is an edge. -/
theorem peaks_of_reachable (h : t.Reachable) :
    (t.maxLength? = none ↔ t.edgeCount = 0) ∧
      (∀ length, t.maxLength? = some length → IsGreatest (Set.range t.longest.get) length) ∧
      (∀ v, t.up.get v ≠ [] →
        ∃ s n, t.summit.get s = true ∧ Walk t.Descends n s v ∧ t.longest.get v < t.longest.get s) ∧
      (∀ target, (t.peaks target).Pairwise (· < ·)) ∧
      (∀ length v, v ∈ t.peaks (some length) ↔ t.summit.get v = true ∧ t.longest.get v = length) ∧
      (∀ v, v ∈ t.peaks none ↔ t.summit.get v = true ∧ t.maxLength? = some (t.longest.get v)) ∧
      (t.edgeCount ≠ 0 → ∀ v, v ∈ t.peaks none ↔ ∀ u, t.longest.get u ≤ t.longest.get v) ∧
      t.peaks (some 0) = [] := by
  have hsound := h.sound
  exact ⟨maxLength?_eq_none_iff hsound, fun _ => isGreatest_of_maxLength? hsound, fun _ => exists_summit_above hsound,
    pairwise_peaks t, fun _ _ => mem_summitsOfLength, fun _ => mem_peaks_none_iff_maxLength?,
    fun hne _ => mem_peaks_none_iff_forall_le hsound hne, peaks_zero hsound⟩

/-- The two summits of a valley are equally long. An edge from the second to the first takes the first out of the set.
-/
theorem peaks_of_reachable_valley :
    let t := build Grid.valley
    let e : Edge Grid.valley := ⟨⟨4, by decide⟩, ⟨0, by decide⟩, by decide⟩
    let after := (t.insert e).1
    after.Reachable ∧ t.peaks none = [e.lower, e.upper] ∧ after.peaks none = [e.upper] ∧ after.maxLength? = some 3 ∧
      IsGreatest (Set.range after.longest.get) 3 ∧ after.up.get e.lower ≠ [] ∧
      (∃ s n, after.summit.get s = true ∧ Walk after.Descends n s e.lower ∧
        after.longest.get e.lower < after.longest.get s) ∧
      after.edgeCount ≠ 0 ∧ ∀ v, v ∈ after.peaks none ↔ ∀ u, after.longest.get u ≤ after.longest.get v := by
  intro t e after
  have hafter : after.Reachable := Reachable.build.insert e
  have hlength : after.maxLength? = some 3 := by decide
  have hup : after.up.get e.lower ≠ [] := by decide
  have hne : after.edgeCount ≠ 0 := by decide
  obtain ⟨_, hgreatest, habove, _, _, _, hpeaks, _⟩ := peaks_of_reachable hafter
  exact ⟨hafter, by decide, by decide, hlength, hgreatest 3 hlength, hup, habove _ hup, hne, hpeaks hne⟩

end Downhill.Terrain
