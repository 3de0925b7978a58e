import Downhill.Proofs.Peaks
import Downhill.Proofs.Scan

/-!
# The longest descents of a grid

A descent of a grid is a sequence of cells each of which is a strictly lower neighbour of the one before. The report
on the terrain of a grid gives the greatest number of steps of a descent and the greatest drop of a descent of that
many steps (`isGreatest_report_build`), both in terms of the grid alone.
-/

namespace Downhill.Grid

variable {g : Grid}

private theorem exists_walk_iff {n : Nat} :
    (∃ a b, Walk g.StepsDown n a b) ↔ ∃ first rest, (first :: rest).IsChain g.StepsDown ∧ rest.length = n := by
  simp only [walk_iff_isChain]
  constructor
  · intro hex
    obtain ⟨a, b, rest, hchain, hlength, _⟩ := hex
    exact ⟨a, rest, hchain, hlength⟩
  · intro hex
    obtain ⟨a, rest, hchain, hlength⟩ := hex
    exact ⟨a, _, rest, hchain, hlength, rfl⟩

private theorem exists_drop_iff {n : Nat} {d : Int} :
    (∃ a b, Walk g.StepsDown n a b ∧ g.elevation a - g.elevation b = d) ↔
      ∃ first rest, (first :: rest).IsChain g.StepsDown ∧ rest.length = n ∧
        g.elevation first - g.elevation (rest.getLastD first) = d := by
  simp only [walk_iff_isChain]
  constructor
  · intro hex
    obtain ⟨a, _, ⟨rest, hchain, hlength, rfl⟩, hd⟩ := hex
    exact ⟨a, rest, hchain, hlength, hd⟩
  · intro hex
    obtain ⟨a, rest, hchain, hlength, hd⟩ := hex
    exact ⟨a, _, ⟨rest, hchain, hlength, rfl⟩, hd⟩

/-- The report on the terrain of a grid gives the greatest number of steps of a descent of the grid, and the exact
greatest drop of the descents of as many steps. -/
theorem isGreatest_report_build (g : Grid) (alternatives : Nat) (withLevels : Bool) :
    let report := (Terrain.build g).report alternatives withLevels
    IsGreatest {n | ∃ first rest, (first :: rest).IsChain g.StepsDown ∧ rest.length = n} report.longest ∧
      IsGreatest {d : Int | ∃ first rest, (first :: rest).IsChain g.StepsDown ∧ rest.length = report.longest ∧
        g.elevation first - g.elevation (rest.getLastD first) = d} report.maxDrop ∧
      ((∀ a b, g.Adjacent a b → g.elevation a = g.elevation b) → report.longest = 0) ∧
      report.maxDrop < UInt64.size := by
  intro report
  have hsound : (Terrain.build g).Sound := Terrain.Reachable.build.sound
  have hwalk : ∀ {n a b}, Walk (Terrain.build g).Descends n a b ↔ Walk g.StepsDown n a b :=
    walk_congr fun _ _ => Terrain.descends_build
  have hlongest : IsGreatest {n | ∃ a b, Walk g.StepsDown n a b} report.longest := by
    simp only [← hwalk]
    exact Terrain.isGreatest_walk_maxLength hsound
  have hdrop : IsGreatest {d : Int | ∃ a b, Walk g.StepsDown report.longest a b ∧ g.elevation a - g.elevation b = d}
      report.maxDrop := by
    simp only [← hwalk]
    exact Terrain.isGreatest_report_maxDrop hsound alternatives withLevels
  refine ⟨?_, ?_, ?_, ?_⟩
  · simpa only [exists_walk_iff] using hlongest
  · simpa only [exists_drop_iff] using hdrop
  · intro hflat
    obtain ⟨a, b, hw⟩ := hlongest.1
    cases hn : report.longest with
    | zero => rfl
    | succ n =>
      rw [hn] at hw
      obtain ⟨c, hstep, _⟩ := walk_succ_iff.mp hw
      have := hflat a c hstep.1
      have := hstep.2
      omega
  · obtain ⟨a, b, _, hd⟩ := hdrop.1
    have := sub_elevation_lt a b
    omega

end Downhill.Grid
