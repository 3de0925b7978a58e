import Downhill.Proofs.Flood
import Mathlib.Algebra.Order.BigOperators.Group.Finset
import Mathlib.Order.Interval.Finset.Nat

/-!
# How often lengths are raised

A wave may raise a cell more than once, on each level on which it reaches it with more than the cell knows by then. What
a cell knows then is either its old length or was proposed on an earlier level, so it is raised again as soon as the
proposal exceeds its old length; and the wave does reach it, for the cells on the way up were raised just so. Hence the
raises are the pairs of a cell and a level such that a descent of as many edges leads from the cell to the upper cell of
the edge and the proposal of that level exceeds the old length of the cell (`Wave.Counted`).

* `Wave.Counted.step`          : one step of a wave counts the raises of its level;
* `Sound.exists_raises`        : the raises that an edge brings about;
* `raised_insert_of_reachable` : their number, and what it says of the lengths that have changed.
-/

namespace Downhill

variable {g : Grid}

/-! ### The raises of a wave -/

namespace Wave

/-- From `v` a walk of `k` steps leads to the top, and the proposal of level `k` exceeds the old length of `v`. -/
def RaisesOn (r : g.Node → g.Node → Prop) (top : g.Node) (base : Nat) (before : Table Nat g.size) (v : g.Node)
    (k : Nat) : Prop :=
  Walk r k v top ∧ before.get v < base + k

/-- What holds of a wave after `k` levels, if it started at the cell `top` with the length `base`. Its frontier holds
the cells `k` steps above the top, but may lack those that it would not raise. -/
structure Counted (r : g.Node → g.Node → Prop) (top : g.Node) (base : Nat) (before : Table Nat g.size) (k : Nat)
    (w : Wave g) : Prop where
  proposed_eq : w.proposed = base + k
  mem_frontier_iff {v : g.Node} : before.get v < base + k → (v ∈ w.frontier ↔ Walk r k v top)
  longest_cases (v : g.Node) : w.longest.get v = before.get v ∨
    before.get v < w.longest.get v ∧ w.longest.get v < base + k
  raised : ∃ raises : Finset (g.Node × Nat),
    (∀ v j, (v, j) ∈ raises ↔ j < k ∧ RaisesOn r top base before v j) ∧ w.raised = raises.card

variable {up : Table (List g.Node) g.size} {r : g.Node → g.Node → Prop} {top : g.Node} {base : Nat}
  {before : Table Nat g.size} {k : Nat} {w : Wave g}

private theorem counted_start : Counted r top base before 0 ⟨before, base, [top], 0⟩ where
  proposed_eq := rfl
  mem_frontier_iff _ := by rw [List.mem_singleton, walk_zero_iff]
  longest_cases _ := .inl rfl
  raised := ⟨∅, by simp, rfl⟩

/-- Above a cell that is raised on the next level there is one that is raised on this level. -/
private theorem RaisesOn.exists_rel (hlt : ∀ v u n, r v u → Walk r n u top → before.get u < before.get v) {v : g.Node}
    (h : RaisesOn r top base before v (k + 1)) : ∃ u, r v u ∧ RaisesOn r top base before u k := by
  obtain ⟨u, hr, hw⟩ := walk_succ_iff.mp h.1
  have := hlt v u k hr hw
  have := h.2
  exact ⟨u, hr, hw, by omega⟩

namespace Counted

/-- The cells that a step raises. -/
private theorem raisesOn_iff (h : Counted r top base before k w) {v : g.Node} :
    v ∈ w.frontier ∧ w.longest.get v < w.proposed ↔ RaisesOn r top base before v k := by
  have hcases := h.longest_cases v
  rw [h.proposed_eq, RaisesOn]
  constructor
  · rintro ⟨hv, hlt⟩
    exact ⟨(h.mem_frontier_iff (by omega)).mp hv, by omega⟩
  · rintro ⟨hw, hlt⟩
    exact ⟨(h.mem_frontier_iff hlt).mpr hw, by omega⟩

private theorem longest_cases_step (h : Counted r top base before k w) (v : g.Node) :
    (w.step up).longest.get v = before.get v ∨
      before.get v < (w.step up).longest.get v ∧ (w.step up).longest.get v < base + (k + 1) := by
  have hproposed := h.proposed_eq
  have hcases := h.longest_cases v
  by_cases hv : v ∈ w.frontier ∧ w.longest.get v < w.proposed
  · rw [get_longest_step, if_pos hv.1]
    omega
  · rw [get_longest_step_of_not hv]
    omega

/-- The raises of a step are new: those counted before belong to earlier levels. -/
private theorem raised_step (h : Counted r top base before k w) : ∃ raises : Finset (g.Node × Nat),
    (∀ v j, (v, j) ∈ raises ↔ j < k + 1 ∧ RaisesOn r top base before v j) ∧ (w.step up).raised = raises.card := by
  obtain ⟨raises, hmem, hcard⟩ := h.raised
  have hrisen : ∀ v, v ∈ (sweep w.proposed w.frontier w.longest).1 ↔ RaisesOn r top base before v k := by
    intro v
    rw [mem_sweep, h.raisesOn_iff]
  let level : Finset (g.Node × Nat) := (sweep w.proposed w.frontier w.longest).1.toFinset ×ˢ {k}
  have hdisjoint : Disjoint raises level := by
    rw [Finset.disjoint_left]
    rintro ⟨v, j⟩ hold hnew
    have hj := ((hmem v j).mp hold).1
    have hk := (Finset.mem_product.mp hnew).2
    rw [Finset.mem_singleton] at hk
    omega
  refine ⟨raises ∪ level, ?_, ?_⟩
  · intro v j
    rw [Finset.mem_union, hmem, Finset.mem_product, List.mem_toFinset, Finset.mem_singleton, hrisen]
    constructor
    · rintro (⟨hj, hv⟩ | ⟨hv, rfl⟩)
      · exact ⟨Nat.lt_succ_of_lt hj, hv⟩
      · exact ⟨Nat.lt_succ_self j, hv⟩
    · rintro ⟨hj, hv⟩
      rcases Nat.lt_succ_iff_lt_or_eq.mp hj with hj | rfl
      · exact .inl ⟨hj, hv⟩
      · exact .inr ⟨hv, rfl⟩
  · rw [Finset.card_union_of_disjoint hdisjoint, Finset.card_product, Finset.card_singleton, Nat.mul_one,
      List.toFinset_card_of_nodup (nodup_sweep _ _ _), ← hcard]
    rfl

theorem step (hup : ∀ u v, v ∈ up.get u ↔ r v u)
    (hlt : ∀ v u n, r v u → Walk r n u top → before.get u < before.get v) (h : Counted r top base before k w) :
    Counted r top base before (k + 1) (w.step up) where
  proposed_eq := congrArg (· + 1) h.proposed_eq
  mem_frontier_iff {v} hv := by
    simp only [mem_frontier_step, h.raisesOn_iff, hup]
    constructor
    · rintro ⟨u, hu, hr⟩
      exact .cons hr hu.1
    · intro hw
      obtain ⟨u, hr, hu⟩ := RaisesOn.exists_rel hlt ⟨hw, hv⟩
      exact ⟨u, hu, hr⟩
  longest_cases := h.longest_cases_step
  raised := h.raised_step

/-- When the frontier is empty all raises have been counted. -/
theorem exists_raises (hlt : ∀ v u n, r v u → Walk r n u top → before.get u < before.get v)
    (h : Counted r top base before k w) (hw : w.frontier = []) : ∃ raises : Finset (g.Node × Nat),
      (∀ v j, (v, j) ∈ raises ↔ RaisesOn r top base before v j) ∧ w.raised = raises.card := by
  have hnone : ∀ j, k ≤ j → ∀ v, ¬RaisesOn r top base before v j := by
    intro j hj
    induction j, hj using Nat.le_induction with
    | base =>
      intro v hv
      have hmem := (h.mem_frontier_iff hv.2).mpr hv.1
      rw [hw] at hmem
      contradiction
    | succ j _ ih =>
      intro v hv
      obtain ⟨u, _, hu⟩ := hv.exists_rel hlt
      exact ih u hu
  obtain ⟨raises, hmem, hcard⟩ := h.raised
  refine ⟨raises, ?_, hcard⟩
  intro v j
  rw [hmem, and_iff_right_iff_imp]
  intro hv
  by_contra hj
  exact hnone j (Nat.le_of_not_lt hj) v hv

end Counted

end Wave

namespace Terrain

variable {t : Terrain g}

/-! ### The raises that an edge brings about -/

/-- Each raise is that of a cell on a level, and a cell is raised on a level if a descent of as many edges leads to the
upper cell and comes with the new edge to more than the old length. -/
theorem Sound.exists_raises (h : t.Sound) (e : Edge g) : ∃ raises : Finset (g.Node × Nat),
    (∀ v k, (v, k) ∈ raises ↔ Walk t.Descends k v e.upper ∧ t.longest.get v < t.longest.get e.lower + 1 + k) ∧
      (t.insert e).2.raised = raises.card := by
  have hup : ∀ u v, v ∈ (link e t).up.get u ↔ (link e t).Descends v u := fun _ _ => mem_up_iff (h.link e)
  -- the new edge itself lies on no descent to its upper cell, so the old lengths decrease along such a descent
  have hlt : ∀ v u n, (link e t).Descends v u → Walk (link e t).Descends n u e.upper →
      t.longest.get u < t.longest.get v := by
    intro v u n hd hw
    rcases descends_link.mp hd with hd | ⟨_, rfl⟩
    · exact h.height.lt_of_rel hd
    · exact absurd ((walk_link_upper_iff h.toLinked).mp hw) (h.not_walk_lower_upper e)
  obtain ⟨k, hcounted⟩ : ∃ k, Wave.Counted (link e t).Descends e.upper (t.longest.get e.lower + 1) t.longest k
      ((wave e t.longest).run (link e t).up g.size) := by
    apply Wave.run_induction (P := fun w => ∃ k, Wave.Counted _ e.upper (t.longest.get e.lower + 1) t.longest k w)
    · rintro w ⟨k, hw⟩
      exact ⟨k + 1, hw.step hup hlt⟩
    · exact ⟨0, Wave.counted_start⟩
  obtain ⟨raises, hmem, hcard⟩ := hcounted.exists_raises hlt (frontier_run_wave h.toLinked e)
  refine ⟨raises, ?_, hcard⟩
  intro v k
  rw [hmem, Wave.RaisesOn, walk_link_upper_iff h.toLinked]

/-- There are at least as many raises as pairs of a cell and a level that are known to be raises. -/
theorem Sound.card_le_raised (h : t.Sound) (e : Edge g) {pairs : Finset (g.Node × Nat)}
    (hpairs : ∀ p ∈ pairs, Walk t.Descends p.2 p.1 e.upper ∧
      t.longest.get p.1 < t.longest.get e.lower + 1 + p.2) : pairs.card ≤ (t.insert e).2.raised := by
  obtain ⟨raises, hmem, hcard⟩ := h.exists_raises e
  rw [hcard]
  exact Finset.card_le_card fun p hp => (hmem p.1 p.2).mpr (hpairs p hp)

section Raises

variable {e : Edge g} {raises : Finset (g.Node × Nat)}
  (hmem : ∀ v k, (v, k) ∈ raises ↔
    Walk t.Descends k v e.upper ∧ t.longest.get v < t.longest.get e.lower + 1 + k)

include hmem

/-- A length changes only with a raise to the new value. -/
private theorem card_changed_le (h : t.Sound) :
    (Finset.univ.filter fun v => (t.insert e).1.longest.get v ≠ t.longest.get v).card ≤ raises.card := by
  refine (Finset.card_le_card ?_).trans (Finset.card_image_le (f := Prod.fst))
  intro v hv
  have hne := (Finset.mem_filter.mp hv).2
  obtain ⟨hcases, hle⟩ := isGreatest_longest_insert h e v
  have hold := hle (.inl rfl)
  rcases hcases with heq | ⟨k, hw, heq⟩
  · exact absurd heq hne
  · -- the upper cell has been raised itself, for otherwise the descent would have been as long before
    have := h.height.add_le hw
    refine Finset.mem_image.mpr ⟨(v, k), (hmem v k).mpr ⟨hw, ?_⟩, rfl⟩
    unfold raisedLength at heq
    omega

/-- Each raise of a cell makes its length greater, and leaves it at most as great as it is in the end. -/
private theorem card_raises_le (h : t.Sound) :
    raises.card ≤ ∑ v, ((t.insert e).1.longest.get v - t.longest.get v) := by
  rw [Finset.card_eq_sum_card_fiberwise fun p _ => Finset.mem_coe.mpr (Finset.mem_univ p.1)]
  apply Finset.sum_le_sum
  intro v _
  rw [← Nat.card_Ioc]
  apply Finset.card_le_card_of_injOn fun p => t.longest.get e.lower + 1 + p.2
  · rintro ⟨u, k⟩ hp
    obtain ⟨hraise, rfl⟩ := Finset.mem_filter.mp hp
    obtain ⟨hw, hlt⟩ := (hmem _ k).mp hraise
    have hbase : t.longest.get e.lower + 1 ≤ t.raisedLength e := Nat.le_max_right _ _
    have hle : t.raisedLength e + k ≤ (t.insert e).1.longest.get u :=
      (isGreatest_longest_insert h e u).2 (.inr ⟨k, hw, rfl⟩)
    exact Finset.mem_coe.mpr (Finset.mem_Ioc.mpr ⟨hlt, (Nat.add_le_add_right hbase k).trans hle⟩)
  · rintro ⟨u, k⟩ hp ⟨u', k'⟩ hp' heq
    obtain ⟨_, rfl⟩ := Finset.mem_filter.mp hp
    obtain ⟨_, rfl⟩ := Finset.mem_filter.mp hp'
    exact Prod.ext rfl (Nat.add_left_cancel heq)

end Raises

/-! ### The number of raises -/

/-- The upper cell of the edge is raised once, on the level before the first one above it. -/
private theorem Sound.exists_raises_above (h : t.Sound) {e : Edge g}
    (hlt : t.longest.get e.upper < t.longest.get e.lower + 1) : ∃ raises : Finset (g.Node × Nat),
    (∀ v k, (v, k) ∈ raises ↔ 1 ≤ k ∧ Walk t.Descends k v e.upper ∧
      t.longest.get v < (t.insert e).1.longest.get e.upper + k) ∧ (t.insert e).2.raised = 1 + raises.card := by
  obtain ⟨raises, hmem, hcard⟩ := h.exists_raises e
  have htop : (e.upper, 0) ∈ raises := (hmem e.upper 0).mpr ⟨.nil e.upper, hlt⟩
  have hupper : (t.insert e).1.longest.get e.upper = t.longest.get e.lower + 1 := by
    rw [h.longest_insert_upper, raisedLength]
    omega
  refine ⟨raises.erase (e.upper, 0), ?_, ?_⟩
  · intro v k
    rw [Finset.mem_erase, hmem, hupper]
    refine and_congr_left fun hraise => ?_
    constructor
    · intro hne
      by_contra hk
      obtain rfl : k = 0 := by omega
      exact hne (Prod.ext (walk_zero_iff.mp hraise.1) rfl)
    · rintro hk heq
      obtain ⟨_, rfl⟩ := Prod.mk.inj heq
      contradiction
  · rw [hcard, Nat.add_comm, Finset.card_erase_add_one htop]

private theorem Sound.raised_eq_zero (h : t.Sound) {e : Edge g}
    (hle : t.longest.get e.lower + 1 ≤ t.longest.get e.upper) : (t.insert e).2.raised = 0 := by
  obtain ⟨raises, hmem, hcard⟩ := h.exists_raises e
  rw [hcard, Finset.card_eq_zero, Finset.eq_empty_iff_forall_notMem]
  rintro ⟨v, k⟩ hraise
  obtain ⟨hw, hlt⟩ := (hmem v k).mp hraise
  have := h.height.add_le hw
  omega

/-- An edge that raises its upper cell raises a cell above once for each number of steps from there down to the upper
cell that has come to more than the old length. Without a raise no length changes. -/
theorem raised_insert_of_reachable (h : t.Reachable) (e : Edge g) :
    let after := (t.insert e).1
    let raised := (t.insert e).2.raised
    (t.longest.get e.lower + 1 ≤ t.longest.get e.upper → raised = 0) ∧
      (t.longest.get e.upper < t.longest.get e.lower + 1 → ∃ raises : Finset (g.Node × Nat),
        (∀ v k, (v, k) ∈ raises ↔ 1 ≤ k ∧ Walk t.Descends k v e.upper ∧
          t.longest.get v < after.longest.get e.upper + k) ∧ raised = 1 + raises.card) ∧
      (∀ v k, Walk after.Descends k v e.upper ↔ Walk t.Descends k v e.upper) ∧
      (raised = 0 ↔ after.longest = t.longest) ∧
      (Finset.univ.filter fun v => after.longest.get v ≠ t.longest.get v).card ≤ raised ∧
      (∀ v, t.longest.get v ≤ after.longest.get v) ∧
      raised ≤ ∑ v, (after.longest.get v - t.longest.get v) := by
  intro after raised
  have hsound := h.sound
  obtain ⟨raises, hmem, hcard⟩ := hsound.exists_raises e
  have hchanged : (Finset.univ.filter fun v => after.longest.get v ≠ t.longest.get v).card ≤ raised :=
    (card_changed_le hmem hsound).trans_eq hcard.symm
  have hgrown : raised ≤ ∑ v, (after.longest.get v - t.longest.get v) :=
    hcard.trans_le (card_raises_le hmem hsound)
  refine ⟨hsound.raised_eq_zero, hsound.exists_raises_above, fun v k => walk_link_upper_iff hsound.toLinked, ?_,
    hchanged, hsound.longest_le_insertAll [e], hgrown⟩
  constructor
  · intro hzero
    have hnone := Finset.card_eq_zero.mp (Nat.le_zero.mp (hzero ▸ hchanged))
    apply Table.ext_get
    intro v
    by_contra hne
    exact Finset.eq_empty_iff_forall_notMem.mp hnone v (Finset.mem_filter.mpr ⟨Finset.mem_univ v, hne⟩)
  · intro hsame
    rw [hsame] at hgrown
    simpa using hgrown

/-- The highest cell is reached on two levels and raised on both of them. -/
theorem raised_insert_of_reachable_valley :
    let t := (bare Grid.valley).insertAll [⟨⟨4, by decide⟩, ⟨3, by decide⟩, by decide⟩,
      ⟨⟨3, by decide⟩, ⟨0, by decide⟩, by decide⟩, ⟨⟨4, by decide⟩, ⟨0, by decide⟩, by decide⟩,
      ⟨⟨1, by decide⟩, ⟨2, by decide⟩, by decide⟩]
    let e : Edge Grid.valley := ⟨⟨0, by decide⟩, ⟨1, by decide⟩, by decide⟩
    let after := (t.insert e).1
    t.Reachable ∧ t.longest.get e.upper < t.longest.get e.lower + 1 ∧
      (∃ raises : Finset (Grid.valley.Node × Nat),
        (∀ v k, (v, k) ∈ raises ↔ 1 ≤ k ∧ Walk t.Descends k v e.upper ∧
          t.longest.get v < after.longest.get e.upper + k) ∧ (t.insert e).2.raised = 1 + raises.card) ∧
      (Finset.univ.filter fun v => after.longest.get v ≠ t.longest.get v).card = 3 ∧ (t.insert e).2.raised = 4 ∧
      ∑ v, (after.longest.get v - t.longest.get v) = 6 := by
  intro t e after
  have ht : t.Reachable := Reachable.bare.insertAll _
  have hlt : t.longest.get e.upper < t.longest.get e.lower + 1 := by decide
  obtain ⟨_, hraises, _⟩ := raised_insert_of_reachable ht e
  exact ⟨ht, hlt, hraises hlt, by decide, by decide, by decide⟩

end Terrain

end Downhill
