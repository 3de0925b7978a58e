import Downhill.Checked.Report
import Downhill.Proofs.CheckedBuild
import Downhill.Proofs.Extent

/-!
# Runs with every check

From the text of a map on, no run leaves the range of its words, but for the number of raises that one edge brings
about: a text of less than 2 ^ 63 characters has a grid of at most half as many cells, so all edges between neighbours
can be counted, and as many again that are recorded later. What a report counts are the edges, and summits, of which
there are no more than cells.

* `levelsBelow_eq_some`, `histogram_eq_some`, `report_eq_some` : reports with every check;
* `insertEach_eq`                                              : runs of calls with every check;
* `onlyRaisesFail_of_parse`                                    : from a text to the reports.
-/

namespace Downhill.Checked

open Terrain

variable {g : Grid}

private theorem mapM_eq_some {α β : Type} {f : α → Option β} {h : α → β} (hf : ∀ a, f a = some (h a)) (l : List α) :
    l.mapM f = some (l.map h) := by
  obtain rfl : f = fun a => some (h a) := funext hf
  exact List.mapM_pure

/-! ### Traces -/

/-- The number of steps down to a level and the number of steps left are together the length. -/
theorem levelsBelow_eq_some (t : Terrain g) {length left steps : Nat} (h : steps + left = length + 1)
    (level : List g.Node) :
    levelsBelow t length (List.range' steps left) level = some (t.levelsBelow left level) := by
  induction left generalizing steps level with
  | zero => rfl
  | succ left ih =>
    have hsub : sub length steps = some left := by
      rw [sub_eq_some (by omega)]
      congr 1
      omega
    rw [List.range'_succ, levelsBelow, hsub, Option.bind_eq_bind, Option.bind_some, Terrain.levelsBelow]
    rcases t.nextLevel left level with _ | ⟨v, vs⟩
    · rfl
    · have hrest := @ih (steps + 1) (by omega) (v :: vs)
      show (levelsBelow t length (List.range' (steps + 1) left) (v :: vs)).bind _ = _
      rw [hrest]
      rfl

theorem trace_eq_some (t : Terrain g) (summit : g.Node) (length : Nat) (withLevels : Bool) :
    trace t summit length withLevels = some (t.trace summit length withLevels) := by
  rw [trace, levelsBelow_eq_some t (Nat.add_comm 1 length)]
  rfl

/-! ### Histograms -/

private theorem tally_eq_some (length : Nat) {table : List (Nat × Nat)}
    (h : ∀ entry ∈ table, entry.2 + 1 < UInt64.size) : tally length table = some (Downhill.tally length table) := by
  induction table with
  | nil => rfl
  | cons entry rest ih =>
    obtain ⟨other, count⟩ := entry
    obtain ⟨hfirst, hrest⟩ := List.forall_mem_cons.mp h
    rw [tally, Downhill.tally, ih hrest, add_eq_some hfirst]
    split
    · rfl
    · split <;> rfl

private theorem count_le_of_mem_tally {length n : Nat} {table : List (Nat × Nat)} (h : ∀ entry ∈ table, entry.2 ≤ n) :
    ∀ entry ∈ Downhill.tally length table, entry.2 ≤ n + 1 := by
  induction table with
  | nil => simp [Downhill.tally]
  | cons entry rest ih =>
    obtain ⟨other, count⟩ := entry
    obtain ⟨hfirst, hrest⟩ := List.forall_mem_cons.mp h
    have hold : ∀ entry ∈ rest, entry.2 ≤ n + 1 := fun entry hentry => Nat.le_succ_of_le (hrest entry hentry)
    unfold Downhill.tally
    split
    · exact List.forall_mem_cons.mpr ⟨Nat.succ_le_succ (Nat.zero_le n), List.forall_mem_cons.mpr ⟨by omega, hold⟩⟩
    · split
      · exact List.forall_mem_cons.mpr ⟨Nat.succ_le_succ hfirst, hold⟩
      · exact List.forall_mem_cons.mpr ⟨by omega, ih hrest⟩

/-- No length occurs more often than there are lengths. -/
private theorem foldrM_tally {lengths : List Nat} (h : lengths.length < UInt64.size) :
    lengths.foldrM tally [] = some (histogramOf lengths) ∧
      ∀ entry ∈ histogramOf lengths, entry.2 ≤ lengths.length := by
  induction lengths with
  | nil => simp [histogramOf]
  | cons length lengths ih =>
    rw [List.length_cons] at h ⊢
    obtain ⟨hfold, hcount⟩ := ih (by omega)
    refine ⟨?_, count_le_of_mem_tally hcount⟩
    rw [List.foldrM_cons, hfold, Option.bind_eq_bind, Option.bind_some, tally_eq_some]
    · rfl
    · intro entry hentry
      have := hcount entry hentry
      omega

theorem histogram_eq_some (t : Terrain g) : histogram t = some t.histogram := by
  have hle : t.summitLengths.length ≤ g.size := by
    rw [summitLengths, List.length_map, summits]
    exact (List.length_filter_le _ _).trans (Nat.le_of_eq List.length_finRange)
  have hword := g.size_lt
  exact (foldrM_tally (by omega)).1

/-! ### Reports -/

private theorem cell_eq_some (v : g.Node) : cell g v = some (.ofNode g v) := by
  rw [cell, mod_eq_some g.width_pos, div_eq_some g.width_pos]
  rfl

private theorem peak_eq_some (trace : Trace g) : peak trace = some (.ofTrace trace) := by
  rw [peak, cell_eq_some, mapM_eq_some fun level => mapM_eq_some cell_eq_some level]
  rfl

theorem report_eq_some {t : Terrain g} (h : t.edgeCount < UInt64.size) (alternatives : Nat) (withLevels : Bool) :
    report t alternatives withLevels = some (t.report alternatives withLevels) := by
  have htraces := mapM_eq_some (fun v => trace_eq_some t v (t.maxLength?.getD 0) withLevels) (t.peaks none)
  have hpeaks := mapM_eq_some peak_eq_some ((t.peaks none).map fun v => t.trace v (t.maxLength?.getD 0) withLevels)
  have hbest : ∀ best : Option (Trace g), best.mapM (fun trace => cell g trace.summit) =
      some (best.map fun trace => Cell.ofNode g trace.summit) := by
    intro best
    cases best with
    | none => rfl
    | some trace =>
      show (cell g trace.summit).map some = _
      rw [cell_eq_some]
      rfl
  rw [report]
  simp only [htraces, histogram_eq_some, edgeCount_eq_some h, hbest, hpeaks, Option.bind_eq_bind, Option.bind_some]
  rfl

/-! ### Runs -/

private theorem raised_le_of_mem_insertions {t : Terrain g} (h : t.Sound) {edges : List (Edge g)} :
    ∀ insertion ∈ t.insertions edges, insertion.raised ≤ g.reliefs := by
  induction edges generalizing t with
  | nil => exact List.forall_mem_nil _
  | cons e edges ih => exact List.forall_mem_cons.mpr ⟨raised_insert_le h e, ih (h.insert e)⟩

/-- Calls that all name edges are answered with what recording the edges did. -/
private theorem insertEach_eq_insertions (t : Terrain g) {calls : List (Nat × Nat)}
    (haccepted : ∀ call ∈ calls, (Edge.ofNat? g call.1 call.2).isSome) :
    t.insertEach calls = (t.insertAll (named g calls), (t.insertions (named g calls)).map some) := by
  induction calls generalizing t with
  | nil => rfl
  | cons call calls ih =>
    obtain ⟨hcall, hcalls⟩ := List.forall_mem_cons.mp haccepted
    obtain ⟨e, he⟩ := Option.isSome_iff_exists.mp hcall
    rw [named_cons, he, Terrain.insertEach, insert?, he]
    simp only [Option.map_some, ih _ hcalls]
    rfl

/-- Calls that all name edges come to the terrain that recording the edges comes to. -/
private theorem insertEach_eq_insertAll {t : Terrain g} (h : t.Sound) {calls : List (Nat × Nat)}
    (haccepted : ∀ call ∈ calls, (Edge.ofNat? g call.1 call.2).isSome) :
    insertEach t calls =
      (insertAll t (named g calls)).map fun last => (last, t.insertions (named g calls)) := by
  induction calls generalizing t with
  | nil => rfl
  | cons call calls ih =>
    obtain ⟨upper, lower⟩ := call
    obtain ⟨hcall, hcalls⟩ := List.forall_mem_cons.mp haccepted
    obtain ⟨e, he⟩ := Option.isSome_iff_exists.mp hcall
    obtain ⟨rfl, rfl⟩ := Edge.ofNat?_eq_some_iff.mp he
    rw [insertEach, Grid.nodeOfNat?_val, Grid.nodeOfNat?_val, Option.bind_eq_bind, Option.bind_some, Option.bind_some,
      named_cons, he, Option.toList_some, List.singleton_append, insertAll_cons, insert_eq h]
    by_cases hword : (t.insert e).2.raised < UInt64.size
    · rw [if_pos hword, Option.bind_some]
      show (insertEach (t.insert e).1 calls).bind _ = _
      rw [ih (h.insert e) hcalls]
      rcases insertAll (t.insert e).1 (named g calls) with _ | last <;> rfl
    · rw [if_neg hword]
      rfl

/-- Calls that all name edges are carried out as without the checks, unless one of the edges brings about more raises
than a word counts. -/
theorem insertEach_eq {t : Terrain g} (h : t.Sound) {calls : List (Nat × Nat)}
    (haccepted : ∀ call ∈ calls, (Edge.ofNat? g call.1 call.2).isSome) :
    insertEach t calls =
      if ∀ insertion ∈ t.insertions (named g calls), insertion.raised < UInt64.size then
        some ((t.insertEach calls).1, t.insertions (named g calls))
      else none := by
  rw [insertEach_eq_insertAll h haccepted, insertAll_eq h, insertEach_fst]
  split <;> rfl

/-- A run with every check made: the terrain of a grid is built, and calls are carried out. It fails only where one
edge brings about more raises than a word counts, never with up to 2 ^ 32 cells. -/
structure OnlyRaisesFail (g : Grid) (calls : List (Nat × Nat)) : Prop where
  build_eq : build g =
    if ∀ insertion ∈ (Terrain.bare g).insertions g.edges, insertion.raised < UInt64.size then some (Terrain.build g)
    else none
  build_of_size_le : g.size ≤ 2 ^ 32 → build g = some (Terrain.build g)
  report_build (alternatives : Nat) (withLevels : Bool) :
    report (Terrain.build g) alternatives withLevels = some ((Terrain.build g).report alternatives withLevels)
  answers_eq : ((Terrain.build g).insertEach calls).2 = ((Terrain.build g).insertions (named g calls)).map some
  insertEach_eq : insertEach (Terrain.build g) calls =
    if ∀ insertion ∈ (Terrain.build g).insertions (named g calls), insertion.raised < UInt64.size then
      some (((Terrain.build g).insertEach calls).1, (Terrain.build g).insertions (named g calls))
    else none
  insertEach_of_size_le : g.size ≤ 2 ^ 32 → insertEach (Terrain.build g) calls =
    some (((Terrain.build g).insertEach calls).1, (Terrain.build g).insertions (named g calls))
  validate_result : validate ((Terrain.build g).insertEach calls).1 = some .sound
  report_result (alternatives : Nat) (withLevels : Bool) :
    report ((Terrain.build g).insertEach calls).1 alternatives withLevels =
      some (((Terrain.build g).insertEach calls).1.report alternatives withLevels)

/-- From a text that is read as a grid, every check is passed but possibly that of the number of raises. -/
theorem onlyRaisesFail_of_parse {text : String} {g : Grid} (hparse : Grid.parse text = .ok g)
    (htext : text.length < 2 ^ 63) {calls : List (Nat × Nat)}
    (haccepted : ∀ call ∈ calls, (Edge.ofNat? g call.1 call.2).isSome) (hcalls : calls.length < 2 ^ 63) :
    OnlyRaisesFail g calls := by
  have hcells := Grid.two_mul_size_le_of_parse hparse
  have hedges := g.length_edges_le
  have hword : (2 : Nat) ^ 64 = UInt64.size := rfl
  have hsound : (Terrain.build g).Sound := Reachable.build.sound
  have hend : ((Terrain.build g).insertEach calls).1.Sound := (Reachable.build.insertEach calls).sound
  have hresult : ((Terrain.build g).insertEach calls).1.edgeCount = g.edges.length + calls.length := by
    rw [insertEach_fst, edgeCount_insertAll, edgeCount_build, length_named haccepted]
  have hbuild := build_eq (g := g) (by omega)
  have hinsert := insertEach_eq hsound haccepted
  have hfew : g.size ≤ 2 ^ 32 → g.reliefs < UInt64.size := by
    intro hsize
    have hpairs := Nat.mul_le_mul hsize (Nat.sub_le_sub_right hsize 1)
    have hreliefs := g.reliefs_le
    omega
  exact {
    build_eq := hbuild
    build_of_size_le := fun hsize => hbuild.trans
      (if_pos fun insertion hmem => (raised_le_of_mem_insertions sound_bare insertion hmem).trans_lt (hfew hsize))
    report_build := report_eq_some (by rw [edgeCount_build]; omega)
    answers_eq := congrArg Prod.snd (insertEach_eq_insertions _ haccepted)
    insertEach_eq := hinsert
    insertEach_of_size_le := fun hsize => hinsert.trans
      (if_pos fun insertion hmem => (raised_le_of_mem_insertions hsound insertion hmem).trans_lt (hfew hsize))
    validate_result := by rw [validate_eq_some hend.toLinked, hend.validate_eq]
    report_result := report_eq_some (by omega) }

/-- Three cells in a row, and the descent from the first to the last recorded twice more. -/
theorem onlyRaisesFail_of_parse_stairs :
    let text := "3 1\n3 2 1\n"
    let calls := [(0, 2), (0, 2)]
    let start := Terrain.build Grid.stairs
    let result := start.insertEach calls
    Grid.parse text = .ok Grid.stairs ∧ text.length < 2 ^ 63 ∧
      (∀ call ∈ calls, (Edge.ofNat? Grid.stairs call.1 call.2).isSome) ∧ calls.length < 2 ^ 63 ∧
      build Grid.stairs = some start ∧
      insertEach start calls = some (result.1, [⟨0, []⟩, ⟨0, []⟩]) ∧
      validate result.1 = some .sound ∧ report result.1 3 true = some (result.1.report 3 true) := by
  intro text calls start result
  have hparse : Grid.parse text = .ok Grid.stairs := by decide
  have htext : text.length < 2 ^ 63 := by decide
  have haccepted : ∀ call ∈ calls, (Edge.ofNat? Grid.stairs call.1 call.2).isSome := by decide
  have hcalls : calls.length < 2 ^ 63 := by decide
  have hrun := onlyRaisesFail_of_parse hparse htext haccepted hcalls
  have hinsertions : start.insertions (named Grid.stairs calls) = [⟨0, []⟩, ⟨0, []⟩] := by decide
  exact ⟨hparse, htext, haccepted, hcalls, hrun.build_of_size_le (by decide),
    hinsertions ▸ hrun.insertEach_of_size_le (by decide), hrun.validate_result, hrun.report_result 3 true⟩

end Downhill.Checked
