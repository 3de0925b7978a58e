import Downhill.Proofs.CheckedInsert
import Mathlib.Data.Nat.Find
import Mathlib.Logic.Function.Iterate

/-!
# The levels of a raise

A raise goes up level by level until it reaches no cell. What it proposes to a cell is at most the number of different
elevations below the cell, and it proposes one more on each level; so it has as many levels above the upper cell of the
edge as there are cells at most, and no length or proposal comes near the limit of a word.

* `Wave.proposed_iterate`, `Wave.Bounded.iterate` : the state after some steps;
* `Wave.run_eq_iterate`                          : a run makes the steps that it takes to reach no cell;
* `levels_insert_of_reachable`                   : the levels of a raise, and its numbers.
-/

namespace Downhill

variable {g : Grid} {up : Table (List g.Node) g.size}

namespace Wave

/-! ### Several steps -/

theorem proposed_iterate (up : Table (List g.Node) g.size) (k : Nat) (w : Wave g) :
    ((Wave.step up)^[k] w).proposed = w.proposed + k := by
  induction k with
  | zero => rfl
  | succ k ih => rw [Function.iterate_succ_apply', proposed_step, ih, Nat.add_assoc]

theorem Bounded.iterate (hup : ∀ u v, v ∈ up.get u → g.elevation u < g.elevation v) (k : Nat) {w : Wave g}
    (h : Bounded w) : Bounded ((Wave.step up)^[k] w) := by
  induction k with
  | zero => exact h
  | succ k ih =>
    rw [Function.iterate_succ_apply']
    exact ih.step hup

/-- While a raise reaches a cell it proposes less than there are cells. -/
private theorem Bounded.proposed_lt_size {w : Wave g} (h : Bounded w) (hne : w.frontier ≠ []) :
    w.proposed < g.size := by
  obtain ⟨v, hv⟩ := List.exists_mem_of_ne_nil _ hne
  exact Nat.lt_of_le_of_lt (h.proposed_le hv) (Grid.card_below_lt_size v)

/-- A raise comes to its end, for its proposals grow. -/
private theorem Bounded.exists_frontier_eq_nil (hup : ∀ u v, v ∈ up.get u → g.elevation u < g.elevation v) {w : Wave g}
    (h : Bounded w) : ∃ k, ((Wave.step up)^[k] w).frontier = [] := by
  refine ⟨g.size, ?_⟩
  by_contra hne
  have := (h.iterate hup g.size).proposed_lt_size hne
  rw [proposed_iterate] at this
  omega

/-- A run makes as many steps as it takes to reach no cell, if it may. -/
theorem run_eq_iterate {k bound : Nat} (hk : k ≤ bound) {w : Wave g}
    (hne : ∀ j < k, ((Wave.step up)^[j] w).frontier ≠ []) (hnil : ((Wave.step up)^[k] w).frontier = []) :
    w.run up bound = (Wave.step up)^[k] w := by
  induction k generalizing w bound with
  | zero =>
    have hnil : w.frontier = [] := hnil
    cases bound with
    | zero => rfl
    | succ bound => rw [run, hnil, List.isEmpty_nil, if_pos rfl, Function.iterate_zero_apply]
  | succ k ih =>
    obtain ⟨bound, rfl⟩ := Nat.exists_eq_add_of_le' hk
    have hfirst : w.frontier ≠ [] := hne 0 (Nat.succ_pos k)
    rw [← Nat.add_assoc, run, if_neg (by rwa [List.isEmpty_iff])]
    apply ih (by omega)
    · intro j hj
      exact hne (j + 1) (by omega)
    · exact hnil

end Wave

namespace Terrain

variable {t : Terrain g}

/-- A raise goes up through fewer levels than the grid has cells. A proposal to a cell, and each length on the way, is
at most the number of different elevations below the cell. -/
theorem levels_insert_of_reachable (h : t.Reachable) (e : Edge g) :
    let level (k : Nat) := (Wave.step (link e t).up)^[k] (wave e t.longest)
    (∃ last, last + 1 < g.size ∧ (∀ k ≤ last, (level k).frontier ≠ []) ∧ (level (last + 1)).frontier = [] ∧
        (t.insert e).1.longest = (level (last + 1)).longest ∧ (t.insert e).2.raised = (level (last + 1)).raised) ∧
      (∀ k, (level k).proposed = t.longest.get e.lower + 1 + k) ∧
      (∀ k, ∀ v ∈ (level k).frontier, (level k).proposed ≤ (g.below v).card) ∧
      (∀ k v, (level k).longest.get v ≤ (g.below v).card) ∧
      (∀ v, (g.below v).card ≤ g.size - 1) ∧
      (t.insert e).2.raised ≤ g.reliefs ∧
      Checked.insert t e.upper e.lower = if (t.insert e).2.raised < UInt64.size then some (t.insert e) else none := by
  intro level
  have hsound := h.sound
  have hup : ∀ u v, v ∈ (link e t).up.get u → g.elevation u < g.elevation v :=
    fun _ _ => (hsound.link e).elevation_lt_of_mem_up
  have hbounded : ∀ k, (level k).Bounded := fun k => (Checked.bounded_wave hsound e).iterate hup k
  have hproposed : ∀ k, (level k).proposed = t.longest.get e.lower + 1 + k := fun k => Wave.proposed_iterate _ k _
  refine ⟨?_, hproposed, fun k v => (hbounded k).proposed_le, fun k => (hbounded k).longest_le,
    fun v => Nat.le_sub_one_of_lt (Grid.card_below_lt_size v), Checked.raised_insert_le hsound e,
    Checked.insert_eq hsound e⟩
  -- the first level without a cell is not that of the upper cell
  let hex := (hbounded 0).exists_frontier_eq_nil hup
  have hnil : (level (Nat.find hex)).frontier = [] := Nat.find_spec hex
  have hne : ∀ k < Nat.find hex, (level k).frontier ≠ [] := fun k hk => Nat.find_min hex hk
  have hpos : Nat.find hex ≠ 0 := by
    intro hzero
    rw [hzero] at hnil
    exact List.cons_ne_nil e.upper [] hnil
  obtain ⟨last, hlast⟩ := Nat.exists_eq_succ_of_ne_zero hpos
  rw [hlast] at hnil hne
  have hlt := (hbounded last).proposed_lt_size (hne last (Nat.lt_succ_self last))
  rw [hproposed] at hlt
  have hrun : (wave e t.longest).run (link e t).up g.size = level (last + 1) :=
    Wave.run_eq_iterate (by omega) hne hnil
  refine ⟨last, by omega, fun k hk => hne k (Nat.lt_succ_of_le hk), hnil, ?_, ?_⟩
  · rw [longest_insert, hrun]
  · exact congrArg Wave.raised hrun

/-- The last edge of the stairs raises all cells above it, on as many levels as there can be. -/
theorem levels_insert_of_reachable_stairs :
    let t := (bare Grid.stairs).insertAll [⟨⟨0, by decide⟩, ⟨1, by decide⟩, by decide⟩]
    let e : Edge Grid.stairs := ⟨⟨1, by decide⟩, ⟨2, by decide⟩, by decide⟩
    let top : Grid.stairs.Node := ⟨0, by decide⟩
    let level (k : Nat) := (Wave.step (link e t).up)^[k] (wave e t.longest)
    t.Reachable ∧ (level 1).frontier = [top] ∧ (level 1).proposed = 2 ∧
      (level 1).proposed ≤ (Grid.stairs.below top).card ∧ (Grid.stairs.below top).card ≤ 2 ∧
      (∃ last, last + 1 < 3 ∧ (∀ k ≤ last, (level k).frontier ≠ []) ∧ (level (last + 1)).frontier = [] ∧
        (t.insert e).1.longest = (level (last + 1)).longest ∧ (t.insert e).2.raised = (level (last + 1)).raised) ∧
      (t.insert e).2.raised = 2 ∧ Checked.insert t e.upper e.lower = some (t.insert e) := by
  intro t e top level
  have ht : t.Reachable := Reachable.bare.insertAll _
  have htop : (level 1).frontier = [top] := by decide
  have hraised : (t.insert e).2.raised = 2 := by decide
  obtain ⟨hlast, _, hproposed, _, hbelow, _, hchecked⟩ := levels_insert_of_reachable ht e
  have hlt : (t.insert e).2.raised < UInt64.size := by
    rw [hraised]
    decide
  exact ⟨ht, htop, by decide, hproposed 1 top (htop ▸ List.mem_singleton_self top), hbelow top, hlast, hraised,
    hchecked.trans (if_pos hlt)⟩

end Terrain

end Downhill
