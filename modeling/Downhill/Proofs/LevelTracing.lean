import Downhill.Proofs.LevelLines
import Downhill.Proofs.Report

/-!
# Tracing levels changes nothing else

The walk down from a cell (`Terrain.follow`) notes each level as it enters it, if the levels are asked for. Each step
finds the next level, the lowest elevation and whether to go on without a look at what was noted, so the same holds of
the whole walk, of the search for the deepest one and of the report. With the levels emptied, a report that traces
them is the one that does not.

* `trace_eq_follow`                   : the levels of a trace as they are noted one by one;
* `follow_withoutLevels`              : the same walk without notes;
* `report_withoutLevels_of_reachable` : reports with and without levels, as they are, as JSON and as text.
-/

namespace Downhill

variable {g : Grid}

/-! ### Walks that note their levels -/

namespace Tracing

def withoutLevels (walk : Tracing g) : Tracing g := { walk with levels := [] }

private theorem lowest_enter (walk : Tracing g) (next : List g.Node) (withLevels : Bool) :
    (walk.enter next withLevels).lowest = (next.map g.elevation).foldl min walk.lowest := by
  rw [List.foldl_min, enter]
  cases (next.map g.elevation).min? with
  | none => exact (min_self _).symm
  | some lowest => rfl

private theorem levels_enter (walk : Tracing g) (next : List g.Node) (withLevels : Bool) :
    (walk.enter next withLevels).levels = walk.levels ++ if withLevels then [next] else [] := by
  cases withLevels with
  | false => exact (List.append_nil _).symm
  | true => rfl

/-- A step does not look at the notes. -/
private theorem enter_withoutLevels (walk : Tracing g) (next : List g.Node) (withLevels : Bool) :
    (walk.enter next withLevels).withoutLevels = walk.withoutLevels.enter next false := rfl

end Tracing

/-- Of two reports the first has levels below its peaks and the second has none, and that is all they differ in. -/
structure Report.AddsLevels (traced plain : Report) : Prop where
  withoutLevels_eq : traced.withoutLevels = plain
  levels_eq_nil : ∀ peak ∈ plain.peaks, peak.levels = []
  /-- The JSON without levels does not have their key, nor does its text quote it. -/
  not_mem_keys : "levels" ∉ plain.toJson.keys
  not_mem_betweenQuotes : "levels".toList ∉ Text.betweenQuotes (plain.toJson.pretty 0).toList
  levels_of_mem : ∀ peak ∈ traced.peaks, peak.levels.length = traced.longest ∧ ∀ level ∈ peak.levels, level ≠ []
  /-- In the JSON with levels each peak has their key, once. -/
  get?_longest : traced.toJson.get? "longest_path" = some (.number traced.longest)
  get?_peaks : traced.toJson.get? "peaks" = some (.array (traced.peaks.map Peak.toJson))
  get?_levels : ∀ peak ∈ traced.peaks, ∃ levels, peak.toJson.get? "levels" = some (.array levels) ∧
    levels.length = traced.longest ∧ ∀ level ∈ levels, ∃ cells, level = .array cells ∧ cells ≠ []
  count_betweenQuotes :
    (Text.betweenQuotes (traced.toJson.pretty 0).toList).count "levels".toList = traced.peaks.length
  /-- The summaries differ in the lines for the levels. -/
  withoutLines_summary : Text.withoutLines "  level[" traced.summary = plain.summary
  filter_summary : (Text.pieces '\n' traced.summary.toList).filter (fun line => !Text.startsOtherwise "  level[" line) =
    (traced.peaks.flatMap fun peak => Peak.levelLines peak.levels).map String.toList

namespace Terrain

variable {t : Terrain g}

/-- A walk that notes nothing is any walk without its notes. -/
theorem follow_withoutLevels (t : Terrain g) (withLevels : Bool) (length : Nat) (walk : Tracing g) :
    (t.follow withLevels length walk).withoutLevels = t.follow false length walk.withoutLevels := by
  induction length generalizing walk with
  | zero => rfl
  | succ rest ih =>
    have hnext : t.nextLevel rest walk.withoutLevels.level = t.nextLevel rest walk.level := rfl
    rw [follow, follow, hnext]
    split
    · exact walk.enter_withoutLevels _ withLevels
    · rw [ih, walk.enter_withoutLevels]

private theorem levels_follow (t : Terrain g) (withLevels : Bool) (length : Nat) (walk : Tracing g) :
    (t.follow withLevels length walk).levels =
      walk.levels ++ if withLevels then t.levelsBelow length walk.level else [] := by
  induction length generalizing walk with
  | zero => cases withLevels <;> exact (List.append_nil _).symm
  | succ rest ih =>
    rw [follow]
    split
    · next hnil =>
      rw [walk.levels_enter, levelsBelow, hnil]
    · next hne =>
      rw [ih, walk.levels_enter, levelsBelow_succ hne, List.append_assoc]
      cases withLevels <;> rfl

private theorem lowest_follow (t : Terrain g) (withLevels : Bool) (length : Nat) (walk : Tracing g) :
    (t.follow withLevels length walk).lowest =
      ((t.levelsBelow length walk.level).flatten.map g.elevation).foldl min walk.lowest := by
  induction length generalizing walk with
  | zero => rfl
  | succ rest ih =>
    rw [follow]
    split
    · next hnil =>
      rw [walk.lowest_enter, levelsBelow, hnil]
      rfl
    · next hne =>
      rw [ih, walk.lowest_enter, levelsBelow_succ hne, List.flatten_cons, List.map_append, List.foldl_append]
      rfl

/-- A trace is the outcome of a walk that notes its levels if they are asked for. -/
theorem trace_eq_follow (t : Terrain g) (s : g.Node) (length : Nat) (withLevels : Bool) :
    t.trace s length withLevels = (t.follow withLevels length (.start s)).trace s length := by
  have hlowest : (t.trace s length withLevels).lowest = (t.follow withLevels length (.start s)).lowest :=
    (t.lowest_follow withLevels length (.start s)).symm
  have hlevels : (t.trace s length withLevels).levels = (t.follow withLevels length (.start s)).levels :=
    (t.levels_follow withLevels length (.start s)).symm
  have hdrop : (t.trace s length withLevels).drop =
      (g.elevation s - (t.follow withLevels length (.start s)).lowest).natAbs := by
    rw [← hlowest, ← drop_trace]
    rfl
  rw [Tracing.trace, ← hdrop, ← hlowest, ← hlevels]
  rfl

end Terrain

/-! ### Traces and reports without levels -/

def Trace.withoutLevels (trace : Trace g) : Trace g := { trace with levels := [] }

/-- The deepest trace is chosen by its drop alone. -/
private theorem Trace.deepest?_map_withoutLevels (traces : List (Trace g)) :
    deepest? (traces.map withoutLevels) = (deepest? traces).map withoutLevels := by
  unfold deepest?
  rw [List.foldl_map]
  show List.foldl _ (Option.map withoutLevels none) traces = _
  apply List.foldl_hom (Option.map withoutLevels)
  intro best trace
  cases best with
  | none => rfl
  | some best =>
    show (if trace.drop ≤ best.drop then _ else _) = Option.map _ (if trace.drop ≤ best.drop then _ else _)
    split <;> rfl

namespace Terrain

variable {t : Terrain g}

private theorem trace_withoutLevels (t : Terrain g) (s : g.Node) (length : Nat) (withLevels : Bool) :
    (t.trace s length withLevels).withoutLevels = t.trace s length false := by
  rw [trace_eq_follow, trace_eq_follow, show Tracing.start s = (Tracing.start s).withoutLevels from rfl,
    ← follow_withoutLevels t withLevels]
  rfl

/-- Both the peaks and the best of them are the same without levels. -/
private theorem report_withoutLevels (t : Terrain g) (alternatives : Nat) (withLevels : Bool) :
    (t.report alternatives withLevels).withoutLevels = t.report alternatives false := by
  have htraces : (t.peaks none).map (fun v => t.trace v (t.maxLength?.getD 0) false) =
      ((t.peaks none).map fun v => t.trace v (t.maxLength?.getD 0) withLevels).map Trace.withoutLevels := by
    rw [List.map_map]
    exact List.map_congr_left fun v _ => (t.trace_withoutLevels v _ withLevels).symm
  simp only [report, Report.withoutLevels, htraces, Trace.deepest?_map_withoutLevels]
  simp only [List.map_map, Option.map_map]
  rfl

/-- A peak has a level for each edge of the longest descents, and they have edges where there are peaks. -/
private theorem levels_of_mem_peaks (h : t.Sound) {alternatives : Nat} {peak : Peak}
    (hpeak : peak ∈ (t.report alternatives true).peaks) :
    (t.report alternatives true).longest ≠ 0 ∧ peak.levels.length = (t.report alternatives true).longest ∧
      ∀ level ∈ peak.levels, level ≠ [] := by
  rw [report_peaks] at hpeak
  obtain ⟨v, hv, rfl⟩ := List.mem_map.mp hpeak
  obtain ⟨hlength, hne⟩ := (mem_peaks_none h).mp hv
  have hdescribes := describes_trace h v true
  rw [hlength] at hne hdescribes
  refine ⟨hne, hdescribes.length_levels rfl, ?_⟩
  intro level hlevel
  obtain ⟨k, hk, rfl⟩ := List.getElem_of_mem hlevel
  obtain ⟨cells, hcells, hnonempty, _⟩ := hdescribes.level_eq hk
  rw [hcells]
  exact mt List.map_eq_nil_iff.mp hnonempty

private theorem levels_eq_nil_of_mem_peaks {alternatives : Nat} {peak : Peak}
    (hpeak : peak ∈ (t.report alternatives false).peaks) : peak.levels = [] := by
  rw [report_peaks] at hpeak
  obtain ⟨v, _, rfl⟩ := List.mem_map.mp hpeak
  rfl

/-- Tracing the levels of a reachable terrain adds them to the report, and changes nothing else. -/
theorem report_withoutLevels_of_reachable (h : t.Reachable) (alternatives : Nat) :
    (t.report alternatives true).AddsLevels (t.report alternatives false) := by
  let traced := t.report alternatives true
  let plain := t.report alternatives false
  have hreport : traced.withoutLevels = plain := t.report_withoutLevels alternatives true
  have hnone : ∀ peak ∈ plain.peaks, peak.levels = [] := fun peak hpeak => levels_eq_nil_of_mem_peaks hpeak
  have hlevels : ∀ peak ∈ traced.peaks, peak.levels.length = traced.longest ∧ ∀ level ∈ peak.levels, level ≠ [] :=
    fun peak hpeak => (levels_of_mem_peaks h.sound hpeak).2
  have hall : ∀ peak ∈ traced.peaks, peak.levels ≠ [] := by
    intro peak hpeak
    obtain ⟨hne, hlength, _⟩ := levels_of_mem_peaks h.sound hpeak
    exact List.ne_nil_of_length_pos (by omega)
  have hcount : plain.peaks.countP (·.levels ≠ []) = 0 := by
    simpa [List.countP_eq_zero] using hnone
  exact {
    withoutLevels_eq := hreport
    levels_eq_nil := hnone
    not_mem_keys := by rw [← List.count_eq_zero, plain.count_levels_toJson, hcount]
    not_mem_betweenQuotes := by rw [← List.count_eq_zero, plain.count_levels_pretty, hcount]
    levels_of_mem := hlevels
    get?_longest := rfl
    get?_peaks := rfl
    get?_levels := by
      intro peak hpeak
      refine ⟨_, (peak.get?_levels_toJson).trans (if_neg (hall peak hpeak)), ?_, ?_⟩
      · rw [List.length_map, (hlevels peak hpeak).1]
      · intro level hlevel
        obtain ⟨cells, hcells, rfl⟩ := List.mem_map.mp hlevel
        exact ⟨_, rfl, mt List.map_eq_nil_iff.mp ((hlevels peak hpeak).2 cells hcells)⟩
    count_betweenQuotes := by
      rw [traced.count_levels_pretty, List.countP_eq_length]
      exact fun peak hpeak => decide_eq_true (hall peak hpeak)
    withoutLines_summary := traced.withoutLines_summary.trans (congrArg Report.summary hreport)
    filter_summary := traced.filter_pieces_summary }

/-- Two peaks with two levels each. -/
theorem report_withoutLevels_of_reachable_valley :
    let traced := (build Grid.valley).report 1 true
    let plain := (build Grid.valley).report 1 false
    (build Grid.valley).Reachable ∧ traced.longest = 2 ∧ traced.peaks.length = 2 ∧ traced ≠ plain ∧
      traced.withoutLevels = plain ∧ (∀ peak ∈ plain.peaks, peak.levels = []) ∧
      "levels" ∉ plain.toJson.keys ∧
      (∀ peak ∈ traced.peaks, peak.levels.length = 2 ∧ ∀ level ∈ peak.levels, level ≠ []) ∧
      (Text.betweenQuotes (traced.toJson.pretty 0).toList).count "levels".toList = 2 ∧
      Text.withoutLines "  level[" traced.summary = plain.summary := by
  intro traced plain
  have hlongest : traced.longest = 2 := by decide
  have hpeaks : traced.peaks.length = 2 := by decide
  have hadds := report_withoutLevels_of_reachable (g := Grid.valley) .build 1
  refine ⟨.build, hlongest, hpeaks, by decide, hadds.withoutLevels_eq, hadds.levels_eq_nil, hadds.not_mem_keys, ?_,
    hadds.count_betweenQuotes.trans hpeaks, hadds.withoutLines_summary⟩
  rw [← hlongest]
  exact hadds.levels_of_mem

end Terrain

end Downhill
