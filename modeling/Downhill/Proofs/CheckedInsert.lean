import Downhill.Checked.Terrain
import Downhill.Proofs.Sound
import Mathlib.Algebra.Order.BigOperators.Group.Finset

/-!
# Recording an edge with every check

What a raise proposes to a cell is the length of a descent from it, so a proposal is at most the number of different
elevations below the cell, and the cells of the frontier have ever more of them. This bounds the lengths, the rounds
and the raises all at once (`Wave.Bounded`): each raise adds to the sum of all lengths. So only the number of raises can
leave the range of a word, and it does not as long as the sum of these bounds is below the number of words.

* `Grid.reliefs_le`                         : the sum of the elevations below the cells of a grid;
* `Wave.Bounded.step`                       : one step of a raise stays within the bounds;
* `Checked.insert_eq`, `raised_insert_le`   : recording an edge with every check, and the number of raises.
-/

namespace Downhill

variable {g : Grid} {up : Table (List g.Node) g.size}

/-- The numbers of different elevations below the cells, added up over all cells. -/
def Grid.reliefs (g : Grid) : Nat :=
  ∑ v, (g.below v).card

theorem Grid.reliefs_le (g : Grid) : g.reliefs ≤ g.size * (g.size - 1) := by
  have hle : g.reliefs ≤ (Finset.univ : Finset g.Node).card * (g.size - 1) := by
    apply Finset.sum_le_card_nsmul
    intro v _
    have := card_below_lt_size v
    omega
  rwa [Finset.card_fin] at hle

namespace Wave

private theorem raised_step (w : Wave g) :
    (w.step up).raised = w.raised + (sweep w.proposed w.frontier w.longest).1.length := rfl

/-- The bounds of a raise: on what is proposed, on what is known, and on the number of raises. -/
structure Bounded (w : Wave g) : Prop where
  proposed_le {v : g.Node} : v ∈ w.frontier → w.proposed ≤ (g.below v).card
  longest_le (v : g.Node) : w.longest.get v ≤ (g.below v).card
  raised_le : w.raised ≤ ∑ v, w.longest.get v

private theorem raised_step_le {w : Wave g} (h : w.raised ≤ ∑ v, w.longest.get v) :
    (w.step up).raised ≤ ∑ v, (w.step up).longest.get v := by
  have hrisen : (sweep w.proposed w.frontier w.longest).1.length =
      ∑ v, if v ∈ (sweep w.proposed w.frontier w.longest).1.toFinset then 1 else 0 := by
    rw [Finset.sum_ite_mem, Finset.univ_inter, Finset.sum_const, smul_eq_mul, mul_one,
      List.toFinset_card_of_nodup (nodup_sweep _ _ _)]
  have hgain : ∀ v, (w.longest.get v + if v ∈ (sweep w.proposed w.frontier w.longest).1.toFinset then 1 else 0) ≤
      (w.step up).longest.get v := by
    intro v
    have hle := le_get_longest_step up w v
    split
    · next hmem =>
      obtain ⟨hfrontier, hlt⟩ := mem_sweep.mp (List.mem_toFinset.mp hmem)
      rw [get_longest_step, if_pos hfrontier]
      omega
    · exact hle
  -- summed over all cells the gains are as many as the cells raised, for no cell is raised twice in a sweep
  have hsum := Finset.sum_le_sum fun v (_ : v ∈ Finset.univ) => hgain v
  rw [Finset.sum_add_distrib, ← hrisen] at hsum
  have : (w.step up).raised = _ := raised_step w
  omega

theorem Bounded.step (hup : ∀ u v, v ∈ up.get u → g.elevation u < g.elevation v) {w : Wave g} (h : Bounded w) :
    Bounded (w.step up) where
  proposed_le {v} hv := by
    -- the proposal grows by one, and the cells reached next are higher than those raised
    obtain ⟨u, ⟨hu, _⟩, huv⟩ := mem_frontier_step.mp hv
    have := h.proposed_le hu
    have := Grid.card_below_lt (hup u v huv)
    rw [proposed_step]
    omega
  longest_le v := by
    have := h.longest_le v
    rw [get_longest_step]
    split
    · next hv =>
      have := h.proposed_le hv
      omega
    · assumption
  raised_le := raised_step_le h.raised_le

private theorem Bounded.run (hup : ∀ u v, v ∈ up.get u → g.elevation u < g.elevation v) (bound : Nat) {w : Wave g}
    (h : Bounded w) : Bounded (w.run up bound) :=
  run_induction (P := Bounded) (fun _ => Bounded.step hup) bound h

private theorem le_raised_run (up : Table (List g.Node) g.size) (bound : Nat) (w : Wave g) :
    w.raised ≤ (w.run up bound).raised := by
  apply run_induction (P := fun w' => w.raised ≤ w'.raised)
  · intro w' h
    rw [raised_step]
    omega
  · exact Nat.le_refl _

private theorem Bounded.raised_le_reliefs {w : Wave g} (h : Bounded w) : w.raised ≤ g.reliefs := by
  have := h.raised_le
  have : ∑ v, w.longest.get v ≤ ∑ v, (g.below v).card := Finset.sum_le_sum fun v _ => h.longest_le v
  show w.raised ≤ ∑ v, (g.below v).card
  omega

end Wave

namespace Checked

open Terrain

/-! ### Raises -/

/-- A tally that a word holds before a sweep is checked by the sweep for the cells that it raises. -/
private theorem sweep_eq (proposed : Nat) (frontier : List g.Node) (longest : Table Nat g.size) {raised : Nat}
    (h : raised < UInt64.size) :
    let swept := Wave.sweep proposed frontier longest
    sweep proposed frontier longest raised =
      (word? (raised + swept.1.length)).map fun raised => (swept.1, swept.2, raised) := by
  intro swept
  induction frontier generalizing longest raised with
  | nil =>
    show some _ = (word? raised).map _
    rw [word?_eq_some h]
    rfl
  | cons v rest ih =>
    have hswept : swept = Wave.sweep proposed (v :: rest) longest := rfl
    rw [Wave.sweep] at hswept
    rw [sweep]
    by_cases hlt : longest.get v < proposed
    · rw [if_pos hlt] at hswept ⊢
      rw [hswept, List.length_cons, Nat.add_comm _ 1, ← Nat.add_assoc]
      by_cases hword : raised + 1 < UInt64.size
      · rw [add_eq_some hword, Option.bind_eq_bind, Option.bind_some, ih _ hword]
        rcases word? _ with _ | raised <;> rfl
      · rw [add, word?_eq_none (by omega), word?_eq_none (by omega)]
        rfl
    · rw [if_neg hlt] at hswept ⊢
      rw [hswept]
      exact ih longest h

/-- One round of a raise. -/
private theorem climb_succ (bound : Nat) {base level raised : Nat} (hbase : 0 < base) {w : Wave g} (hw : w.Bounded)
    (hne : w.frontier ≠ []) (hproposed : w.proposed = base + level) (hraised : raised < UInt64.size) :
    climb up base (bound + 1) level w.frontier w.longest raised =
      (word? (raised + (Wave.sweep w.proposed w.frontier w.longest).1.length)).bind
        (climb up base bound (level + 1) (w.step up).frontier (w.step up).longest) := by
  obtain ⟨v, rest, hfrontier⟩ := List.exists_cons_of_ne_nil hne
  have hle : w.proposed ≤ (g.below v).card := hw.proposed_le (by simp [hfrontier])
  have hcard := Grid.card_below_lt_size v
  have hword := g.size_lt
  have hproposal : add base level = some w.proposed := by rw [add_eq_some (by omega), hproposed]
  have hlevel : add level 1 = some (level + 1) := add_eq_some (by omega)
  have hsweep := sweep_eq w.proposed w.frontier w.longest hraised
  -- the round matches on the frontier, so both sides must show its first cell
  have hstep : w.step up = Wave.step up ⟨w.longest, w.proposed, v :: rest, w.raised⟩ := by rw [← hfrontier]
  rw [hfrontier] at hsweep
  rw [hstep, hfrontier, climb, hproposal, hlevel, Option.bind_eq_bind, Option.bind_some, hsweep]
  rcases word? _ with _ | raised <;> rfl

/-- A raise under way, all raises of which but the first are counted: its tally is checked, and nothing else in it can
fail. -/
private theorem climb_eq (hup : ∀ u v, v ∈ up.get u → g.elevation u < g.elevation v) (bound : Nat)
    {base level raised : Nat} (hbase : 0 < base) {w : Wave g} (hw : w.Bounded) (hproposed : w.proposed = base + level)
    (hraised : w.raised = raised + 1) (hword : raised < UInt64.size)
    (hbound : ∀ v ∈ w.frontier, g.size ≤ (g.below v).card + bound) :
    climb up base bound level w.frontier w.longest raised =
      (word? ((w.run up bound).raised - 1)).map fun raised => ((w.run up bound).longest, raised) := by
  induction bound generalizing w level raised with
  | zero =>
    have hnil : w.frontier = [] := by
      apply List.eq_nil_iff_forall_not_mem.mpr
      intro v hv
      have := hbound v hv
      have := Grid.card_below_lt_size v
      omega
    rw [hnil, climb, Wave.run, hraised, Nat.add_sub_cancel, word?_eq_some hword]
    rfl
  | succ bound ih =>
    by_cases hnil : w.frontier = []
    · rw [Wave.run, hnil, List.isEmpty_nil, if_pos rfl, climb, hraised, Nat.add_sub_cancel, word?_eq_some hword]
      rfl
    · have hcount : (w.step up).raised = _ := Wave.raised_step w
      rw [climb_succ bound hbase hw hnil hproposed hword, Wave.run, if_neg (by rwa [List.isEmpty_iff])]
      by_cases hnext : raised + (Wave.sweep w.proposed w.frontier w.longest).1.length < UInt64.size
      · rw [word?_eq_some hnext, Option.bind_some]
        apply ih (hw.step hup)
        · rw [Wave.proposed_step]
          omega
        · omega
        · exact hnext
        · intro v hv
          obtain ⟨u, ⟨hu, _⟩, huv⟩ := Wave.mem_frontier_step.mp hv
          have := hbound u hu
          have := Grid.card_below_lt (hup u v huv)
          omega
      · -- the tally only grows, so the final one is out of range as well
        have hlast := Wave.le_raised_run up bound (w.step up)
        rw [word?_eq_none (by omega), word?_eq_none (by omega)]
        rfl

theorem bounded_wave {t : Terrain g} (h : t.Sound) (e : Edge g) : (wave e t.longest).Bounded where
  proposed_le {v} hv := by
    obtain rfl : v = e.upper := List.mem_singleton.mp hv
    have := h.longest_le_card_below e.lower
    have := Grid.card_below_lt e.descends
    show t.longest.get e.lower + 1 ≤ _
    omega
  longest_le := h.longest_le_card_below
  raised_le := Nat.zero_le _

private theorem step_wave_of_lt {e : Edge g} {longest : Table Nat g.size}
    (h : longest.get e.upper < longest.get e.lower + 1) :
    (wave e longest).step up =
      ⟨longest.put e.upper (longest.get e.lower + 1), longest.get e.lower + 1 + 1, up.get e.upper, 1⟩ := by
  simp [wave, Wave.step, Wave.sweep, h]

private theorem step_wave_of_not_lt {e : Edge g} {longest : Table Nat g.size}
    (h : ¬longest.get e.upper < longest.get e.lower + 1) :
    (wave e longest).step up = ⟨longest, longest.get e.lower + 1 + 1, [], 0⟩ := by
  simp [wave, Wave.step, Wave.sweep, h]

private theorem run_wave (e : Edge g) (longest : Table Nat g.size) {bound : Nat} (h : 0 < bound) :
    (wave e longest).run up bound = ((wave e longest).step up).run up (bound - 1) := by
  cases bound with
  | zero => contradiction
  | succ bound => rfl

/-- The upper cell of the edge is raised before the rounds start, and counted after they have come to their end. -/
private theorem raise_eq {t : Terrain g} (h : t.Sound) (e : Edge g) :
    let done := (wave e t.longest).run (link e t).up g.size
    raise (link e t).up e t.longest = (word? done.raised).map fun raised => (done.longest, raised) := by
  intro done
  have hup : ∀ u v, v ∈ (link e t).up.get u → g.elevation u < g.elevation v :=
    fun _ _ => (h.link e).elevation_lt_of_mem_up
  have hword := g.size_lt
  have hbounded := (bounded_wave h e).step hup
  have hproposal : t.longest.get e.lower + 1 ≤ (g.below e.upper).card :=
    (bounded_wave h e).proposed_le (List.mem_singleton_self _)
  have hcard := Grid.card_below_lt_size e.upper
  have hrun : done = _ := run_wave e t.longest (by omega)
  rw [raise, add_eq_some (by omega), Option.bind_eq_bind, Option.bind_some, hrun]
  by_cases hlt : t.longest.get e.upper < t.longest.get e.lower + 1
  · rw [step_wave_of_lt hlt] at hbounded ⊢
    have hclimb := climb_eq hup (g.size - 1) (Nat.succ_pos (t.longest.get e.lower)) hbounded rfl rfl (by decide) (by
      intro v hv
      have := Grid.card_below_lt (hup _ v hv)
      omega)
    have hfirst := Wave.le_raised_run (link e t).up (g.size - 1) ⟨t.longest.put e.upper (t.longest.get e.lower + 1),
      t.longest.get e.lower + 1 + 1, (link e t).up.get e.upper, 1⟩
    rw [if_pos hlt, hclimb]
    generalize Wave.run _ _ _ = done at hfirst ⊢
    by_cases hcount : done.raised - 1 < UInt64.size
    · rw [word?_eq_some hcount]
      show (word? (1 + (done.raised - 1))).bind _ = _
      rw [Nat.add_sub_of_le hfirst]
      rcases word? _ with _ | raised <;> rfl
    · rw [word?_eq_none (by omega), word?_eq_none (by omega)]
      rfl
  · rw [step_wave_of_not_lt hlt, if_neg hlt]
    cases g.size - 1 <;> rfl

/-! ### The set of summits -/

/-- An edge that has been appended is an edge down of its upper cell. -/
private theorem summitChanges_eq_some (e : Edge g) (t : Terrain g) (summit : Table Bool g.size) :
    summitChanges e (link e t).down (link e t).up summit = some (Terrain.summitChanges e (link e t).up summit) := by
  have hne : ((link e t).down.get e.upper).isEmpty = false := by simp [down_link]
  rw [summitChanges, hne, Bool.and_false, if_neg Bool.false_ne_true]

/-! ### Insertions -/

theorem raised_insert_le {t : Terrain g} (h : t.Sound) (e : Edge g) : (t.insert e).2.raised ≤ g.reliefs :=
  ((bounded_wave h e).run (fun _ _ => (h.link e).elevation_lt_of_mem_up) g.size).raised_le_reliefs

/-- Recording an edge comes to the same terrain as without the checks, unless it brings about more raises than a word
counts. -/
theorem insert_eq {t : Terrain g} (h : t.Sound) (e : Edge g) :
    insert t e.upper e.lower = if (t.insert e).2.raised < UInt64.size then some (t.insert e) else none := by
  have he : Edge.ofNodes? e.upper e.lower = some e := Edge.ofNodes?_eq_some_iff.mpr ⟨rfl, rfl⟩
  rw [insert, he, Option.bind_eq_bind, Option.bind_some]
  show (raise (link e t).up e t.longest).bind _ = _
  rw [raise_eq h]
  by_cases hword : (t.insert e).2.raised < UInt64.size
  · rw [if_pos hword]
    have hraised : word? ((wave e t.longest).run (link e t).up g.size).raised = some (t.insert e).2.raised :=
      word?_eq_some hword
    rw [hraised, Option.map_some, Option.bind_some]
    show (summitChanges e (link e t).down (link e t).up t.summit).bind _ = _
    rw [summitChanges_eq_some]
    rfl
  · rw [if_neg hword]
    have hraised : word? ((wave e t.longest).run (link e t).up g.size).raised = none :=
      word?_eq_none (Nat.not_lt.mp hword)
    rw [hraised]
    rfl

end Checked

end Downhill
