import Downhill.Proofs.CheckedReport
import Downhill.Proofs.Report

/-!
# Traces of any length

A trace follows descents of a given length, which need not be that of the longest descent from its first cell. Its first
step leads to the cells below with a longest descent that is one shorter than the given length. If there is none, the
trace ends after one empty level. Otherwise each of these cells has descents of just the length that is left, so the
trace goes on to the end: none of its levels is empty, and its lowest cell is on the last.

* `follows_trace`      : a trace whose first step leads somewhere;
* `trace_of_reachable` : traces of any length from any cell.
-/

namespace Downhill

variable {g : Grid}

/-- The levels hold the cells that the descents of `length` edges from `s` reach, edge by edge, if their second cell is
one edge shorter. The lowest cell is on the last level. -/
structure Trace.Follows (t : Terrain g) (s : g.Node) (length : Nat) (levels : List (List g.Node)) (lowest : Int) :
    Prop where
  length_levels : levels.length = length
  ne_nil {level : List g.Node} : level ∈ levels → level ≠ []
  pairwise {level : List g.Node} : level ∈ levels → level.Pairwise (· < ·)
  mem_getElem_iff {k : Nat} (hk : k < levels.length) (v : g.Node) : v ∈ levels[k] ↔
    ∃ u e, t.Descends s u ∧ t.longest.get u + 1 = length ∧ Walk t.Descends k u v ∧
      Walk t.Descends (length - (k + 1)) v e
  exists_last : ∃ last, levels.getLast? = some last ∧ (∀ v ∈ last, t.down.get v = []) ∧
    IsLeast {z | ∃ v ∈ last, g.elevation v = z} lowest

namespace Terrain

variable {t : Terrain g}

/-! ### The first step -/

private theorem mem_nextLevel_singleton {s v : g.Node} {rest : Nat} :
    v ∈ t.nextLevel rest [s] ↔ t.Descends s v ∧ t.longest.get v = rest := by
  simp [mem_nextLevel, Descends]

private theorem nextLevel_singleton_eq_nil_iff {s : g.Node} {rest : Nat} :
    t.nextLevel rest [s] = [] ↔ ∀ u, t.Descends s u → t.longest.get u ≠ rest := by
  simp only [List.eq_nil_iff_forall_not_mem, mem_nextLevel_singleton, not_and, ne_eq]

private theorem levelsBelow_of_nextLevel_eq_nil {rest : Nat} {level : List g.Node} (h : t.nextLevel rest level = []) :
    t.levelsBelow (rest + 1) level = [[]] := by
  rw [levelsBelow, h]

/-! ### Traces that follow a descent -/

private theorem length_levelsBelow_singleton (h : t.Sound) {s : g.Node} {rest : Nat} (hne : t.nextLevel rest [s] ≠ []) :
    (t.levelsBelow (rest + 1) [s]).length = rest + 1 := by
  rw [levelsBelow_succ hne, List.length_cons, length_levelsBelow h.height longest_of_mem_nextLevel hne]

private theorem ne_nil_of_mem_levelsBelow_singleton (h : t.Sound) {s : g.Node} {rest : Nat}
    (hne : t.nextLevel rest [s] ≠ []) {level : List g.Node} (hlevel : level ∈ t.levelsBelow (rest + 1) [s]) :
    level ≠ [] := by
  rw [levelsBelow_succ hne, List.mem_cons] at hlevel
  rcases hlevel with rfl | hlevel
  · exact hne
  · exact ne_nil_of_mem_levelsBelow h.height longest_of_mem_nextLevel hne hlevel

/-- Each level by the cells that the first step leads to. -/
private theorem mem_getElem_levelsBelow_singleton (h : t.Sound) {s : g.Node} {rest : Nat}
    (hne : t.nextLevel rest [s] ≠ []) {k : Nat} (hk : k < (t.levelsBelow (rest + 1) [s]).length) (v : g.Node) :
    v ∈ (t.levelsBelow (rest + 1) [s])[k] ↔
      t.longest.get v + k = rest ∧ ∃ u ∈ t.nextLevel rest [s], Walk t.Descends k u v := by
  simp only [levelsBelow_succ hne]
  cases k with
  | zero =>
    rw [List.getElem_cons_zero]
    constructor
    · intro hv
      exact ⟨longest_of_mem_nextLevel v hv, v, hv, .nil v⟩
    · rintro ⟨_, u, hu, hw⟩
      exact walk_zero_iff.mp hw ▸ hu
  | succ k =>
    rw [List.getElem_cons_succ]
    exact mem_getElem_levelsBelow h.height longest_of_mem_nextLevel hne _

/-- The lowest cell of a trace is the end of a descent that the first step starts. -/
private theorem isLeast_lowest_trace_of_ne_nil (h : t.Sound) {s : g.Node} {rest : Nat} (hne : t.nextLevel rest [s] ≠ [])
    (withLevels : Bool) :
    IsLeast {z | ∃ u ∈ t.nextLevel rest [s], ∃ v, Walk t.Descends rest u v ∧ g.elevation v = z}
      (t.trace s (rest + 1) withLevels).lowest := by
  have hlowest : (t.trace s (rest + 1) withLevels).lowest =
      g.lowest s (t.nextLevel rest [s] ++ (t.levelsBelow rest (t.nextLevel rest [s])).flatten) := by
    rw [← List.flatten_cons, ← levelsBelow_succ hne]
    rfl
  rw [hlowest]
  apply isLeast_ends h longest_of_mem_nextLevel hne
  obtain ⟨⟨w, hw, hlow⟩, hle⟩ := isLeast_lowest s
    (t.nextLevel rest [s] ++ (t.levelsBelow rest (t.nextLevel rest [s])).flatten)
  -- the first cell is higher than those of the first level, so it is not the lowest
  have hfirst : w ≠ s := by
    rintro rfl
    obtain ⟨u, hu⟩ := List.exists_mem_of_ne_nil _ hne
    have := h.elevation_lt (mem_nextLevel_singleton.mp hu).1
    have := hle ⟨u, List.mem_cons_of_mem _ (List.mem_append_left _ hu), rfl⟩
    omega
  exact ⟨⟨w, (List.mem_cons.mp hw).resolve_left hfirst, hlow⟩,
    fun z ⟨v, hv, hz⟩ => hle ⟨v, List.mem_cons_of_mem _ hv, hz⟩⟩

theorem follows_trace (h : t.Sound) {s : g.Node} {rest : Nat} (hne : t.nextLevel rest [s] ≠ []) (withLevels : Bool) :
    Trace.Follows t s (rest + 1) (t.levelsBelow (rest + 1) [s]) (t.trace s (rest + 1) withLevels).lowest where
  length_levels := length_levelsBelow_singleton h hne
  ne_nil := ne_nil_of_mem_levelsBelow_singleton h hne
  pairwise := pairwise_of_mem_levelsBelow
  mem_getElem_iff {k} hk v := by
    rw [mem_getElem_levelsBelow_singleton h hne]
    rw [length_levelsBelow_singleton h hne] at hk
    constructor
    · rintro ⟨hv, u, hu, hw⟩
      obtain ⟨hd, hrest⟩ := mem_nextLevel_singleton.mp hu
      obtain ⟨e, he⟩ := h.height.exists_walk v
      rw [show t.longest.get v = rest + 1 - (k + 1) by omega] at he
      exact ⟨u, e, hd, by omega, hw, he⟩
    · rintro ⟨u, e, hd, hrest, hw, he⟩
      have := h.height.add_le hw
      have := h.height.add_le he
      exact ⟨by omega, u, mem_nextLevel_singleton.mpr ⟨hd, by omega⟩, hw⟩
  exists_last := by
    have hlength := length_levelsBelow_singleton h hne
    have hlast : ∀ v, v ∈ (t.levelsBelow (rest + 1) [s])[rest] ↔
        t.longest.get v = 0 ∧ ∃ u ∈ t.nextLevel rest [s], Walk t.Descends rest u v := by
      intro v
      rw [mem_getElem_levelsBelow_singleton h hne, Nat.add_eq_right]
    refine ⟨(t.levelsBelow (rest + 1) [s])[rest], ?_, ?_, ?_⟩
    · have hget : (t.levelsBelow (rest + 1) [s])[rest]? = some (t.levelsBelow (rest + 1) [s])[rest] :=
        List.getElem?_eq_getElem _
      rw [List.getLast?_eq_getElem?, ← hget, hlength]
      rfl
    · intro v hv
      have hzero := ((hlast v).mp hv).1
      apply List.eq_nil_iff_forall_not_mem.mpr
      intro w hd
      have := h.height.lt_of_rel hd
      omega
    · have hset : {z | ∃ v ∈ (t.levelsBelow (rest + 1) [s])[rest], g.elevation v = z} =
          {z | ∃ u ∈ t.nextLevel rest [s], ∃ v, Walk t.Descends rest u v ∧ g.elevation v = z} := by
        ext z
        constructor
        · rintro ⟨v, hv, hz⟩
          obtain ⟨_, u, hu, hw⟩ := (hlast v).mp hv
          exact ⟨u, hu, v, hw, hz⟩
        · rintro ⟨u, hu, v, hw, hz⟩
          have := longest_of_mem_nextLevel u hu
          have := h.height.add_le hw
          exact ⟨v, (hlast v).mpr ⟨by omega, u, hu, hw⟩, hz⟩
      rw [hset]
      exact isLeast_lowest_trace_of_ne_nil h hne withLevels

/-! ### All traces -/

private theorem trace_of_forall_not {s : g.Node} {length : Nat} (hlength : length ≠ 0)
    (h : ∀ u, t.Descends s u → t.longest.get u + 1 ≠ length) (withLevels : Bool) :
    t.levelsBelow length [s] = [[]] ∧ (t.trace s length withLevels).lowest = g.elevation s := by
  obtain ⟨rest, rfl⟩ := Nat.exists_eq_succ_of_ne_zero hlength
  have hlevels : t.levelsBelow (rest + 1) [s] = [[]] := by
    apply levelsBelow_of_nextLevel_eq_nil
    rw [nextLevel_singleton_eq_nil_iff]
    intro u hd hu
    exact h u hd (congrArg Nat.succ hu)
  refine ⟨hlevels, ?_⟩
  show g.lowest s (t.levelsBelow (rest + 1) [s]).flatten = g.elevation s
  rw [hlevels]
  rfl

/-- The trace of any length from any cell of a reachable terrain passes every check. It follows the descents of that
length, or has a single empty level where no step leads to a cell one edge shorter. -/
theorem trace_of_reachable (h : t.Reachable) (s : g.Node) (length : Nat) (withLevels : Bool) :
    let trace := t.trace s length withLevels
    let levels := (t.trace s length true).levels
    Checked.trace t s length withLevels = some trace ∧ trace.levels = (if withLevels then levels else []) ∧
      (length = 0 → levels = [] ∧ trace.lowest = g.elevation s) ∧
      (length ≠ 0 → (∀ u, t.Descends s u → t.longest.get u + 1 ≠ length) →
        levels = [[]] ∧ trace.lowest = g.elevation s ∧ trace.drop = 0) ∧
      (t.longest.get s < length → ∀ u, t.Descends s u → t.longest.get u + 1 ≠ length) ∧
      ((∃ u, t.Descends s u ∧ t.longest.get u + 1 = length) → Trace.Follows t s length levels trace.lowest) ∧
      (trace.drop : Int) = g.elevation s - trace.lowest ∧ trace.drop < UInt64.size := by
  intro trace levels
  have hsound := h.sound
  have hdrop : (trace.drop : Int) = g.elevation s - trace.lowest := drop_trace t s length withLevels
  refine ⟨Checked.trace_eq_some t s length withLevels, rfl, ?_, ?_, ?_, ?_, hdrop,
    drop_trace_lt t s length withLevels⟩
  · rintro rfl
    exact ⟨rfl, rfl⟩
  · intro hlength hnone
    obtain ⟨hlevels, hlowest⟩ := trace_of_forall_not hlength hnone withLevels
    refine ⟨hlevels, hlowest, ?_⟩
    rw [hlowest, Int.sub_self] at hdrop
    exact Int.ofNat_eq_zero.mp hdrop
  · intro hlt u hd
    have := hsound.height.lt_of_rel hd
    omega
  · rintro ⟨u, hd, rfl⟩
    exact follows_trace hsound (List.ne_nil_of_mem (mem_nextLevel_singleton.mpr ⟨hd, rfl⟩)) withLevels

/-- The highest cell has descents of two edges, and one of a single edge recorded beside them. -/
theorem trace_of_reachable_valley :
    let e : Edge Grid.valley := ⟨⟨4, by decide⟩, ⟨2, by decide⟩, by decide⟩
    let t := ((build Grid.valley).insert e).1
    t.Reachable ∧ t.longest.get e.upper = 2 ∧
      Trace.Follows t e.upper 1 (t.trace e.upper 1 true).levels (t.trace e.upper 1 true).lowest ∧
      (t.trace e.upper 1 true).levels = [[e.lower]] ∧ (t.trace e.upper 1 true).drop = 8 ∧
      (t.trace e.upper 3 true).levels = [[]] ∧ (t.trace e.upper 3 true).drop = 0 := by
  intro e t
  have ht : t.Reachable := Reachable.build.insert e
  have hd : t.Descends e.upper e.lower := by
    show e.lower ∈ t.down.get e.upper
    decide
  obtain ⟨_, _, _, _, _, hfollows, _⟩ := trace_of_reachable ht e.upper 1 true
  obtain ⟨_, _, _, hnone, hlong, _⟩ := trace_of_reachable ht e.upper 3 true
  obtain ⟨hlevels, _, hdrop⟩ := hnone (by decide) (hlong (by decide))
  exact ⟨ht, by decide, hfollows ⟨e.lower, hd, by decide⟩, by decide, by decide, hlevels, hdrop⟩

end Terrain

end Downhill
