import Downhill.Proofs.Elevation
import Downhill.Terrain.Wave

/-!
# The outcome of a raise

While a raise is under way a cell may know a length that is too short for the cells below it, but then it is in the
frontier and the length proposed to it is long enough (`Wave.Pending`). A step keeps this up: the cells raised are
the only ones whose length has changed, and the cells above them are the next frontier. When the frontier is empty
nothing is pending, and the lengths are heights.

The frontier rises with each step, so it is empty after as many steps as there are cells (`Wave.frontier_run`): the
bound on the number of steps never cuts a raise short.
-/

namespace Downhill.Wave

variable {g : Grid} {up : Table (List g.Node) g.size} {r : g.Node → g.Node → Prop}

/-! ### One step -/

theorem proposed_step (w : Wave g) : (w.step up).proposed = w.proposed + 1 := rfl

theorem get_longest_step (w : Wave g) (v : g.Node) :
    (w.step up).longest.get v = if v ∈ w.frontier then max (w.longest.get v) w.proposed else w.longest.get v := by
  show (sweep w.proposed w.frontier w.longest).2.get v = _
  split
  · next h => exact get_sweep_of_mem _ _ h
  · next h => exact get_sweep_of_not_mem _ _ h

theorem mem_frontier_step {w : Wave g} {v : g.Node} :
    v ∈ (w.step up).frontier ↔ ∃ u, (u ∈ w.frontier ∧ w.longest.get u < w.proposed) ∧ v ∈ up.get u := by
  show v ∈ (sweep w.proposed w.frontier w.longest).1.flatMap (fun u => up.get u) ↔ _
  simp only [List.mem_flatMap, mem_sweep]

/-- A cell that is not reached, or knows at least the proposed length, is left alone. -/
theorem get_longest_step_of_not {w : Wave g} {v : g.Node} (h : ¬(v ∈ w.frontier ∧ w.longest.get v < w.proposed)) :
    (w.step up).longest.get v = w.longest.get v := by
  rw [get_longest_step]
  split
  · next hmem =>
    have : ¬w.longest.get v < w.proposed := fun hlt => h ⟨hmem, hlt⟩
    omega
  · rfl

theorem le_get_longest_step (up : Table (List g.Node) g.size) (w : Wave g) (v : g.Node) :
    w.longest.get v ≤ (w.step up).longest.get v := by
  rw [get_longest_step]
  split <;> omega

/-- A run keeps what its steps keep. -/
theorem run_induction {P : Wave g → Prop} (hstep : ∀ w, P w → P (w.step up)) (bound : Nat) {w : Wave g} (h : P w) :
    P (w.run up bound) := by
  induction bound generalizing w with
  | zero => exact h
  | succ bound ih =>
    unfold run
    split
    · exact h
    · exact ih (hstep w h)

/-! ### What is pending -/

/-- What holds of a raise under way: a step down leads to a lesser length, unless the upper cell is about to be
raised; and each length, known or proposed, is at most one more than that of some cell below. -/
structure Pending (r : g.Node → g.Node → Prop) (w : Wave g) : Prop where
  settled {v u : g.Node} : r v u →
    w.longest.get u < w.longest.get v ∨ v ∈ w.frontier ∧ w.longest.get u < w.proposed
  supported {v : g.Node} : w.longest.get v ≠ 0 → ∃ u, r v u ∧ w.longest.get v ≤ w.longest.get u + 1
  reached {v : g.Node} : v ∈ w.frontier → ∃ u, r v u ∧ w.proposed ≤ w.longest.get u + 1

private theorem Pending.step (hup : ∀ u v, v ∈ up.get u ↔ r v u) {w : Wave g} (h : Pending r w) :
    Pending r (w.step up) where
  settled {v u} hr := by
    have hv := le_get_longest_step up w v
    by_cases hrisen : u ∈ w.frontier ∧ w.longest.get u < w.proposed
    · -- the lower cell was raised to the proposed length, and the upper one is reached next
      right
      refine ⟨mem_frontier_step.mpr ⟨u, hrisen, (hup u v).mpr hr⟩, ?_⟩
      rw [get_longest_step, if_pos hrisen.1, proposed_step]
      omega
    · left
      rw [get_longest_step_of_not hrisen]
      rcases h.settled hr with hlt | ⟨hmem, hlt⟩
      · omega
      · rw [get_longest_step, if_pos hmem]
        omega
  supported {v} hne := by
    by_cases hrisen : v ∈ w.frontier ∧ w.longest.get v < w.proposed
    · obtain ⟨u, hr, hle⟩ := h.reached hrisen.1
      have := le_get_longest_step up w u
      refine ⟨u, hr, ?_⟩
      rw [get_longest_step, if_pos hrisen.1]
      omega
    · rw [get_longest_step_of_not hrisen] at hne ⊢
      obtain ⟨u, hr, hle⟩ := h.supported hne
      have := le_get_longest_step up w u
      exact ⟨u, hr, by omega⟩
  reached {v} hmem := by
    obtain ⟨u, ⟨hmem, hlt⟩, hv⟩ := mem_frontier_step.mp hmem
    refine ⟨u, (hup u v).mp hv, ?_⟩
    rw [proposed_step, get_longest_step, if_pos hmem]
    omega

/-- When no cell is reached any more, the lengths are heights. -/
private theorem Pending.isHeight {w : Wave g} (h : Pending r w) (hw : w.frontier = []) : IsHeight r w.longest.get where
  lt_of_rel {v u} hr := by
    rcases h.settled hr with hlt | ⟨hmem, _⟩
    · exact hlt
    · rw [hw] at hmem
      contradiction
  exists_rel := h.supported

/-! ### The end of a raise -/

/-- The frontier leaves the grid: its cells have ever more elevations below them. -/
theorem frontier_run (hup : ∀ u v, v ∈ up.get u → g.elevation u < g.elevation v) (bound : Nat) {w : Wave g}
    (h : ∀ v ∈ w.frontier, g.size ≤ (g.below v).card + bound) : (w.run up bound).frontier = [] := by
  induction bound generalizing w with
  | zero =>
    apply List.eq_nil_iff_forall_not_mem.mpr
    intro v hv
    have := h v hv
    have := Grid.card_below_lt_size v
    omega
  | succ bound ih =>
    unfold run
    split
    · next hw => exact List.isEmpty_iff.mp hw
    · apply ih
      intro v hv
      obtain ⟨u, ⟨hu, _⟩, hv⟩ := mem_frontier_step.mp hv
      have := h u hu
      have := Grid.card_below_lt (hup u v hv)
      omega

/-- A raise that starts with something pending ends with heights. -/
theorem Pending.isHeight_run (hup : ∀ u v, v ∈ up.get u ↔ r v u) (hr : ∀ v u, r v u → g.elevation u < g.elevation v)
    {w : Wave g} (h : Pending r w) : IsHeight r (w.run up g.size).longest.get := by
  have hpending : Pending r (w.run up g.size) := run_induction (P := Pending r) (fun _ => Pending.step hup) g.size h
  apply hpending.isHeight
  apply frontier_run
  · intro u v hv
    exact hr v u ((hup u v).mp hv)
  · intro v _
    omega

end Downhill.Wave
