import Downhill.Proofs.Sound
import Downhill.Terrain.Drop
import Mathlib.Data.List.Sort

/-!
# The levels below a cell

Where the lengths are heights, a level whose cells all have the same height `n` has exactly `n` levels below it, none
of them empty, and level `k` holds the cells that a longest descent from the first level reaches in its `k`-th step.
So the lowest elevation of all levels is that of the lowest end of a longest descent, and the drop is exact.

* `length_levelsBelow`, `mem_getElem_levelsBelow` : the levels;
* `isLeast_lowest_trace`, `isGreatest_drop_trace` : the lowest end and the greatest drop of a longest descent;
* `exists_deepest?`                              : the first trace with the greatest drop;
* `trace_congr`                                  : a trace depends on which edges there are, not on their order.
-/

namespace Downhill

variable {g : Grid}

/-! ### Level by level -/

private theorem eq_ascending {n : Nat} {l l' : List (Fin n)} (h : l'.Pairwise (· < ·)) (hmem : ∀ x, x ∈ l ↔ x ∈ l') :
    ascending l = l' :=
  List.Pairwise.eq_of_mem_iff (pairwise_ascending l) h fun x => by rw [mem_ascending, hmem]

namespace Terrain

/-- A level on the longest descents is followed by one, unless they end. -/
private theorem nextLevel_ne_nil {t : Terrain g} (h : IsHeight t.Descends t.longest.get) {rest : Nat}
    {level : List g.Node}
    (hlevel : ∀ u ∈ level, t.longest.get u = rest + 1) (hne : level ≠ []) : t.nextLevel rest level ≠ [] := by
  obtain ⟨u, hu⟩ := List.exists_mem_of_ne_nil level hne
  have hlongest := hlevel u hu
  obtain ⟨v, hd, hle⟩ := h.exists_rel (a := u) (by omega)
  have := h.lt_of_rel hd
  exact List.ne_nil_of_mem (mem_nextLevel.mpr ⟨⟨u, hu, hd⟩, by omega⟩)

theorem levelsBelow_succ {t : Terrain g} {rest : Nat} {level : List g.Node} (hne : t.nextLevel rest level ≠ []) :
    t.levelsBelow (rest + 1) level = t.nextLevel rest level :: t.levelsBelow rest (t.nextLevel rest level) := by
  rw [levelsBelow]
  split
  · contradiction
  · next v vs h => rw [h]

theorem longest_of_mem_nextLevel {t : Terrain g} {rest : Nat} {level : List g.Node} :
    ∀ u ∈ t.nextLevel rest level, t.longest.get u = rest :=
  fun _ hu => (mem_nextLevel.mp hu).2

theorem length_levelsBelow {t : Terrain g} (h : IsHeight t.Descends t.longest.get) {n : Nat} {level : List g.Node}
    (hlevel : ∀ u ∈ level, t.longest.get u = n) (hne : level ≠ []) : (t.levelsBelow n level).length = n := by
  induction n generalizing level with
  | zero => rfl
  | succ n ih =>
    have hnext := nextLevel_ne_nil h hlevel hne
    rw [levelsBelow_succ hnext, List.length_cons, ih longest_of_mem_nextLevel hnext]

theorem ne_nil_of_mem_levelsBelow {t : Terrain g} (h : IsHeight t.Descends t.longest.get) {n : Nat}
    {level l : List g.Node} (hlevel : ∀ u ∈ level, t.longest.get u = n) (hne : level ≠ [])
    (hl : l ∈ t.levelsBelow n level) : l ≠ [] := by
  induction n generalizing level with
  | zero => contradiction
  | succ n ih =>
    have hnext := nextLevel_ne_nil h hlevel hne
    rw [levelsBelow_succ hnext, List.mem_cons] at hl
    rcases hl with rfl | hl
    · exact hnext
    · exact ih longest_of_mem_nextLevel hnext hl

theorem pairwise_of_mem_levelsBelow {t : Terrain g} {n : Nat} {level l : List g.Node}
    (hl : l ∈ t.levelsBelow n level) : l.Pairwise (· < ·) := by
  induction n generalizing level with
  | zero => contradiction
  | succ n ih =>
    by_cases hnext : t.nextLevel n level = []
    · rw [levelsBelow, hnext] at hl
      rw [List.mem_singleton.mp hl]
      exact List.Pairwise.nil
    · rw [levelsBelow_succ hnext, List.mem_cons] at hl
      rcases hl with rfl | hl
      · exact pairwise_nextLevel t n level
      · exact ih hl

/-- The first steps of walks that lose one unit of height with each step. -/
private theorem exists_walk_nextLevel {t : Terrain g} (h : IsHeight t.Descends t.longest.get) {n k : Nat}
    {level : List g.Node} (hlevel : ∀ u ∈ level, t.longest.get u = n + 1) {v : g.Node}
    (hv : t.longest.get v + (k + 1) = n + 1) :
    (∃ u ∈ level, Walk t.Descends (k + 1) u v) ↔ ∃ u ∈ t.nextLevel n level, Walk t.Descends k u v := by
  constructor
  · intro hex
    obtain ⟨u, hu, hw⟩ := hex
    obtain ⟨w, hd, hw⟩ := walk_succ_iff.mp hw
    have := hlevel u hu
    have := h.lt_of_rel hd
    have := h.add_le hw
    exact ⟨w, mem_nextLevel.mpr ⟨⟨u, hu, hd⟩, by omega⟩, hw⟩
  · intro hex
    obtain ⟨w, hmem, hw⟩ := hex
    obtain ⟨⟨u, hu, hd⟩, _⟩ := mem_nextLevel.mp hmem
    exact ⟨u, hu, .cons hd hw⟩

/-- The cells of a level are those that a longest descent reaches in as many steps. -/
theorem mem_getElem_levelsBelow {t : Terrain g} (h : IsHeight t.Descends t.longest.get) {n : Nat}
    {level : List g.Node} (hlevel : ∀ u ∈ level, t.longest.get u = n) (hne : level ≠ []) {k : Nat}
    (hk : k < (t.levelsBelow n level).length) {v : g.Node} :
    v ∈ (t.levelsBelow n level)[k] ↔
      t.longest.get v + (k + 1) = n ∧ ∃ u ∈ level, Walk t.Descends (k + 1) u v := by
  -- a walk from the level is a step to the next level and a walk from there
  induction n generalizing level k with
  | zero => simp [levelsBelow] at hk
  | succ n ih =>
    have hnext := nextLevel_ne_nil h hlevel hne
    simp only [levelsBelow_succ hnext] at hk ⊢
    cases k with
    | zero =>
      rw [List.getElem_cons_zero, mem_nextLevel]
      constructor
      · intro hmem
        obtain ⟨⟨u, hu, hd⟩, hv⟩ := hmem
        exact ⟨by omega, u, hu, .single hd⟩
      · intro hex
        obtain ⟨hv, u, hu, hw⟩ := hex
        obtain ⟨w, hd, hw⟩ := walk_succ_iff.mp hw
        obtain rfl := walk_zero_iff.mp hw
        exact ⟨⟨u, hu, hd⟩, by omega⟩
    | succ k =>
      rw [List.getElem_cons_succ, ih longest_of_mem_nextLevel hnext]
      constructor
      · rintro ⟨hv, hw⟩
        exact ⟨by omega, (exists_walk_nextLevel h hlevel (by omega)).mpr hw⟩
      · rintro ⟨hv, hw⟩
        exact ⟨by omega, (exists_walk_nextLevel h hlevel (by omega)).mp hw⟩

/-- The cells of all levels are those on a longest descent, its first cell apart. -/
private theorem mem_flatten_levelsBelow {t : Terrain g} (h : IsHeight t.Descends t.longest.get) {n : Nat}
    {level : List g.Node} (hlevel : ∀ u ∈ level, t.longest.get u = n) (hne : level ≠ []) {v : g.Node} :
    v ∈ (t.levelsBelow n level).flatten ↔
      ∃ k, t.longest.get v + (k + 1) = n ∧ ∃ u ∈ level, Walk t.Descends (k + 1) u v := by
  rw [List.mem_flatten]
  constructor
  · intro hmem
    obtain ⟨l, hl, hv⟩ := hmem
    obtain ⟨k, hk, rfl⟩ := List.getElem_of_mem hl
    exact ⟨k, (mem_getElem_levelsBelow h hlevel hne hk).mp hv⟩
  · intro hex
    obtain ⟨k, hv, hw⟩ := hex
    have hk : k < (t.levelsBelow n level).length := by
      rw [length_levelsBelow h hlevel hne]
      omega
    exact ⟨_, List.getElem_mem hk, (mem_getElem_levelsBelow h hlevel hne hk).mpr ⟨hv, hw⟩⟩

end Terrain

/-! ### The lowest elevation -/

theorem isLeast_lowest (v : g.Node) (others : List g.Node) :
    IsLeast {z | ∃ u ∈ v :: others, g.elevation u = z} (g.lowest v others) := by
  have hmin : ((v :: others).map g.elevation).min? = some (g.lowest v others) := List.min?_cons'
  obtain ⟨hmem, hle⟩ := List.min?_eq_some_iff.mp hmin
  refine ⟨List.mem_map.mp hmem, ?_⟩
  intro z hz
  obtain ⟨u, hu, rfl⟩ := hz
  exact hle _ (List.mem_map_of_mem hu)

namespace Terrain

/-- The drop of a trace of any length is the exact height of its first cell over its lowest. -/
theorem drop_trace (t : Terrain g) (s : g.Node) (length : Nat) (withLevels : Bool) :
    ((t.trace s length withLevels).drop : Int) = g.elevation s - (t.trace s length withLevels).lowest := by
  have hle := (isLeast_lowest s (t.levelsBelow length [s]).flatten).2 ⟨s, List.mem_cons_self, rfl⟩
  exact Int.toNat_of_nonneg (Int.sub_nonneg_of_le hle)

theorem drop_trace_lt (t : Terrain g) (s : g.Node) (length : Nat) (withLevels : Bool) :
    (t.trace s length withLevels).drop < UInt64.size := by
  obtain ⟨u, _, hlow⟩ := (isLeast_lowest s (t.levelsBelow length [s]).flatten).1
  have hrange := Grid.sub_elevation_lt s u
  rw [hlow] at hrange
  exact Int.ofNat_lt.mp ((drop_trace t s length withLevels).trans_lt hrange)

/-- The lowest elevation of a level and those below it is that of the lowest end of a descent from the level. -/
theorem isLeast_ends {t : Terrain g} (h : t.Sound) {n : Nat} {level : List g.Node}
    (hlevel : ∀ u ∈ level, t.longest.get u = n) (hne : level ≠ []) {z : Int}
    (hz : IsLeast {z | ∃ v ∈ level ++ (t.levelsBelow n level).flatten, g.elevation v = z} z) :
    IsLeast {z | ∃ u ∈ level, ∃ v, Walk t.Descends n u v ∧ g.elevation v = z} z := by
  obtain ⟨⟨v, hv, rfl⟩, hle⟩ := hz
  have hend : ∀ u ∈ level, ∀ e, Walk t.Descends n u e → g.elevation v ≤ g.elevation e := by
    intro u hu e hw
    refine hle ⟨e, List.mem_append.mpr ?_, rfl⟩
    rw [mem_flatten_levelsBelow h.height hlevel hne]
    have := hlevel u hu
    have := h.height.add_le hw
    cases n with
    | zero => exact .inl (walk_zero_iff.mp hw ▸ hu)
    | succ n => exact .inr ⟨n, by omega, u, hu, hw⟩
  -- the lowest cell of all levels lies on a longest descent, which ends no higher
  have hcell : ∃ u ∈ level, ∃ k, t.longest.get v + k = n ∧ Walk t.Descends k u v := by
    rw [List.mem_append, mem_flatten_levelsBelow h.height hlevel hne] at hv
    rcases hv with hv | ⟨k, hk, u, hu, hw⟩
    · exact ⟨v, hv, 0, hlevel v hv, .nil v⟩
    · exact ⟨u, hu, k + 1, hk, hw⟩
  obtain ⟨u, hu, k, hk, hw⟩ := hcell
  obtain ⟨e, he⟩ := h.height.exists_walk v
  have hwe : Walk t.Descends n u e := by
    rw [← hk, Nat.add_comm]
    exact hw.trans he
  constructor
  · have := h.elevation_le he
    have := hend u hu e hwe
    exact ⟨u, hu, e, hwe, by omega⟩
  · rintro z ⟨u, hu, e, hw, rfl⟩
    exact hend u hu e hw

/-- The lowest elevation of a trace is that of the lowest end of a longest descent. -/
theorem isLeast_lowest_trace {t : Terrain g} (h : t.Sound) (s : g.Node) (withLevels : Bool) :
    IsLeast {z | ∃ v, Walk t.Descends (t.longest.get s) s v ∧ g.elevation v = z}
      (t.trace s (t.longest.get s) withLevels).lowest := by
  have hlevel : ∀ u ∈ [s], t.longest.get u = t.longest.get s := by simp
  have hends := isLeast_ends h hlevel (by simp) (isLeast_lowest s (t.levelsBelow (t.longest.get s) [s]).flatten)
  simp only [List.mem_singleton, exists_eq_left] at hends
  exact hends

/-- The drop of a trace is the exact greatest drop of a longest descent. -/
theorem isGreatest_drop_trace {t : Terrain g} (h : t.Sound) (s : g.Node) (withLevels : Bool) :
    IsGreatest {d : Int | ∃ v, Walk t.Descends (t.longest.get s) s v ∧ g.elevation s - g.elevation v = d}
      (t.trace s (t.longest.get s) withLevels).drop := by
  obtain ⟨⟨v, hw, hlow⟩, hle⟩ := isLeast_lowest_trace h s withLevels
  rw [drop_trace]
  constructor
  · exact ⟨v, hw, by omega⟩
  · intro d hd
    obtain ⟨u, hu, rfl⟩ := hd
    have := hle ⟨u, hu, rfl⟩
    omega

end Terrain

/-! ### The deepest descent -/

theorem Trace.exists_deepest? {traces : List (Trace g)} (hne : traces ≠ []) :
    ∃ before best after, traces = before ++ best :: after ∧ Trace.deepest? traces = some best ∧
      (∀ trace ∈ before, trace.drop < best.drop) ∧ ∀ trace ∈ after, trace.drop ≤ best.drop := by
  induction traces using List.reverseRecOn with
  | nil => contradiction
  | append_singleton traces last ih =>
    -- the fold runs from the front, so the last trace is compared with the deepest before it
    unfold Trace.deepest? at ih ⊢
    rw [List.foldl_append]
    by_cases hnil : traces = []
    · subst hnil
      exact ⟨[], last, [], rfl, rfl, by simp, by simp⟩
    · obtain ⟨before, best, after, rfl, hbest, hbefore, hafter⟩ := ih hnil
      rw [hbest]
      by_cases hle : last.drop ≤ best.drop
      · refine ⟨before, best, after ++ [last], by simp, by simp [hle], hbefore, ?_⟩
        intro trace htrace
        rcases List.mem_append.mp htrace with htrace | htrace
        · exact hafter trace htrace
        · rw [List.mem_singleton.mp htrace]
          exact hle
      · refine ⟨before ++ best :: after, last, [], rfl, by simp [hle], ?_, by simp⟩
        intro trace htrace
        rcases List.mem_append.mp htrace with htrace | htrace
        · have := hbefore trace htrace
          omega
        · rcases List.mem_cons.mp htrace with rfl | htrace
          · omega
          · have := hafter trace htrace
            omega

/-! ### Traces and the order of edges -/

namespace Terrain

private theorem nextLevel_congr {t t' : Terrain g} (hlongest : t.longest = t'.longest)
    (hd : ∀ v u, t.Descends v u ↔ t'.Descends v u) (rest : Nat) (level : List g.Node) :
    t.nextLevel rest level = t'.nextLevel rest level := by
  apply eq_ascending (pairwise_nextLevel t' rest level)
  intro v
  rw [mem_nextLevel, ← hlongest]
  simp only [List.mem_filter, List.mem_flatMap, decide_eq_true_eq]
  exact and_congr_left fun _ => exists_congr fun u => and_congr_right fun _ => hd u v

theorem trace_congr {t t' : Terrain g} (hlongest : t.longest = t'.longest)
    (hd : ∀ v u, t.Descends v u ↔ t'.Descends v u) (s : g.Node) (length : Nat) (withLevels : Bool) :
    t.trace s length withLevels = t'.trace s length withLevels := by
  have hlevels : ∀ n level, t.levelsBelow n level = t'.levelsBelow n level := by
    intro n
    induction n with
    | zero => exact fun _ => rfl
    | succ n ih =>
      intro level
      rw [levelsBelow, levelsBelow, nextLevel_congr hlongest hd]
      split
      · rfl
      · rw [ih]
  simp only [trace, hlevels]

end Terrain

end Downhill
