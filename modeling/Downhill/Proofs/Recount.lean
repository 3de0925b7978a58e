import Downhill.Proofs.Sound
import Downhill.Terrain.Recount
import Mathlib.Algebra.Order.BigOperators.Group.Finset

/-!
# The outcome of a recount

While a terrain is peeled, whatever its lists hold, the queue has received the cells without an open edge, each once,
and the open edges of a cell and the entries up to it at the peeled cells are together as many as its edges down
(`Peel.Queued`). Where each edge down is paired with as many entries up, the lowest cell left over at the end would
have no open edge, so every cell is peeled; and then no entry up can be left without an edge down, for the entries of
a cell are together as many as its edges. So a recount that ends tells that the lists are linked.

Where the lists are linked a recount does end, for no cell is asked to close more edges than it has, and the length
of a cell is its height over the peeled cells all along (`Peel.Partway`). A cell that joins the queue has its final
length, for all cells below it are peeled.

* `Peel.closed_of_foldlM_close` : what peeling one cell does to the cells above it;
* `Peel.Queued.step`, `Peel.Partway.step` : one peeled cell keeps the invariants;
* `linked_of_recount`          : a recount that ends tells that the lists are linked;
* `Linked.exists_run_peel`     : each cell is peeled once and the lengths are heights;
* `Sound.recount_eq`           : the recount of a sound terrain is its table of lengths;
* `recount_exact`              : the recount as a whole.
-/

namespace Downhill

variable {g : Grid}

private theorem sum_count_eq_length {l : List g.Node} {s : Finset g.Node} (h : ∀ u ∈ l, u ∈ s) :
    ∑ u ∈ s, l.count u = l.length := by
  have hsum := Multiset.sum_count_eq_card (s := s) (m := (l : Multiset g.Node)) h
  simpa only [Multiset.coe_count, Multiset.coe_card] using hsum

private theorem sum_count_le_length (l : List g.Node) (s : Finset g.Node) : ∑ u ∈ s, l.count u ≤ l.length := by
  calc ∑ u ∈ s, l.count u ≤ ∑ u, l.count u := Finset.sum_le_sum_of_subset (Finset.subset_univ s)
    _ = l.length := sum_count_eq_length fun u _ => Finset.mem_univ u

namespace Peel

/-- The cells that have been peeled. -/
def done (p : Peel g) : List g.Node :=
  p.order.toList.take p.peeled

/-! ### Closing edges -/

/-- The state `q` comes from `p` when the cells of a list close an edge each to a cell of a given length. -/
structure Closed (below : Nat) (closing : List g.Node) (p q : Peel g) : Prop where
  longest (v : g.Node) :
    q.longest.get v = if v ∈ closing then max (p.longest.get v) (below + 1) else p.longest.get v
  pending (v : g.Node) : q.pending.get v + closing.count v = p.pending.get v
  peeled : q.peeled = p.peeled
  order : ∃ joined : List g.Node, q.order.toList = p.order.toList ++ joined ∧ joined.Nodup ∧
    ∀ v, v ∈ joined ↔ v ∈ closing ∧ q.pending.get v = 0

private theorem closed_nil (below : Nat) (p : Peel g) : Closed below [] p p where
  longest v := by simp
  pending v := by simp
  peeled := rfl
  order := ⟨[], by simp⟩

private theorem closed_of_close {below : Nat} {p q : Peel g} {u : g.Node} (h : close below p u = some q) :
    Closed below [u] p q := by
  unfold close at h
  split at h
  · contradiction
  next hpos =>
  obtain rfl := Option.some.inj h
  refine ⟨?_, ?_, rfl, ?_⟩
  · intro v
    rw [Table.get_put]
    by_cases hv : v = u
    · simp [hv]
    · simp [hv]
  · intro v
    rw [Table.get_put, List.count_singleton]
    by_cases hv : v = u
    · simp only [hv, if_true, beq_self_eq_true]
      omega
    · simp [hv, Ne.symm hv]
  · by_cases hone : p.pending.get u = 1
    · refine ⟨[u], by simp [hone], by simp, fun v => ?_⟩
      rw [List.mem_singleton, Table.get_put]
      constructor
      · intro hv
        rw [if_pos hv]
        exact ⟨hv, by omega⟩
      · exact fun h => h.1
    · refine ⟨[], by simp [hone], by simp, fun v => ?_⟩
      simp only [List.not_mem_nil, List.mem_singleton, Table.get_put, false_iff, not_and]
      intro hv
      rw [if_pos hv]
      omega

private theorem Closed.append {below : Nat} {first second : List g.Node} {p q r : Peel g} (h : Closed below first p q)
    (h' : Closed below second q r) : Closed below (first ++ second) p r where
  longest v := by
    rw [h'.longest, h.longest]
    by_cases hf : v ∈ first <;> by_cases hs : v ∈ second <;> simp [hf, hs]
  pending v := by
    have := h.pending v
    have := h'.pending v
    rw [List.count_append]
    omega
  peeled := h'.peeled.trans h.peeled
  order := by
    obtain ⟨joined, horder, hnodup, hmem⟩ := h.order
    obtain ⟨joined', horder', hnodup', hmem'⟩ := h'.order
    -- a cell that has joined has no open edge left to close
    have hnone : ∀ v, q.pending.get v = 0 → v ∉ second := by
      intro v h0 hv
      have := List.count_pos_iff.mpr hv
      have := h'.pending v
      omega
    refine ⟨joined ++ joined', by rw [horder', horder, List.append_assoc], ?_, ?_⟩
    · rw [List.nodup_append]
      refine ⟨hnodup, hnodup', ?_⟩
      rintro v hv _ hv' rfl
      exact hnone v ((hmem v).mp hv).2 ((hmem' v).mp hv').1
    · intro v
      have hpending := h'.pending v
      rw [List.mem_append, List.mem_append, hmem, hmem']
      constructor
      · intro hmem
        rcases hmem with ⟨hv, h0⟩ | ⟨hv, h0⟩
        · exact ⟨.inl hv, by omega⟩
        · exact ⟨.inr hv, h0⟩
      · rintro ⟨hv, h0⟩
        by_cases hs : v ∈ second
        · exact .inr ⟨hs, h0⟩
        · rw [List.count_eq_zero_of_not_mem hs] at hpending
          exact .inl ⟨hv.resolve_right hs, by omega⟩

theorem closed_of_foldlM_close {below : Nat} {closing : List g.Node} {p q : Peel g}
    (h : closing.foldlM (close below) p = some q) : Closed below closing p q := by
  induction closing generalizing p with
  | nil =>
    obtain rfl : p = q := Option.some.inj h
    exact closed_nil below p
  | cons u closing ih =>
    rw [List.foldlM_cons] at h
    obtain ⟨p', hfirst, hrest⟩ := Option.bind_eq_some_iff.mp h
    exact (closed_of_close hfirst).append (ih hrest)

/-- Edges are closed one by one as long as each cell has as many as it is asked to close. -/
private theorem exists_foldlM_close (below : Nat) {closing : List g.Node} {p : Peel g}
    (h : ∀ v, closing.count v ≤ p.pending.get v) : ∃ q, closing.foldlM (close below) p = some q := by
  induction closing generalizing p with
  | nil => exact ⟨p, rfl⟩
  | cons u closing ih =>
    have hpos : p.pending.get u ≠ 0 := by
      have := h u
      rw [List.count_cons_self] at this
      omega
    obtain ⟨p', hp'⟩ : ∃ p', close below p u = some p' := ⟨_, if_neg hpos⟩
    obtain ⟨q, hq⟩ := ih (p := p') (by
      intro v
      have hv := h v
      have hv' := (closed_of_close hp').pending v
      rw [List.count_cons] at hv
      rw [List.count_singleton] at hv'
      omega)
    rw [List.foldlM_cons, hp']
    exact ⟨q, hq⟩

/-! ### The queue -/

/-- What holds of the queue and the open edges of a recount under way, whatever the lists hold. -/
structure Queued (t : Terrain g) (p : Peel g) : Prop where
  peeled_le : p.peeled ≤ p.order.size
  nodup : p.order.toList.Nodup
  mem_order (v : g.Node) : v ∈ p.order.toList ↔ p.pending.get v = 0
  pending_add (v : g.Node) :
    p.pending.get v + ∑ u ∈ p.done.toFinset, (t.up.get u).count v = (t.down.get v).length

private theorem queued_peel (t : Terrain g) : Queued t t.peel where
  peeled_le := Nat.zero_le _
  nodup := (List.nodup_finRange g.size).filter _
  mem_order v := by
    show v ∈ t.sinks ↔ (Vector.ofFn fun v => (t.down.get v).length).get v = 0
    rw [Table.get_ofFn, Terrain.mem_sinks, List.length_eq_zero_iff]
  pending_add v := by
    show (Vector.ofFn fun v => (t.down.get v).length).get v + _ = _
    simp [done, Terrain.peel]

/-- The first cell of the queue joins the cells that have been peeled, whatever joins the queue behind it. -/
private theorem done_of_append {p q : Peel g} {v : g.Node} {joined : List g.Node} (hv : p.order[p.peeled]? = some v)
    (hpeeled : q.peeled = p.peeled + 1) (horder : q.order.toList = p.order.toList ++ joined) :
    q.done = p.done ++ [v] := by
  obtain ⟨hlt, hget⟩ := Array.getElem?_eq_some_iff.mp hv
  rw [done, hpeeled, horder, List.take_append_of_le_length (by rw [Array.length_toList]; omega),
    List.take_add_one, Array.getElem?_toList, hv, done]
  rfl

namespace Queued

variable {t : Terrain g} {p q : Peel g} {v : g.Node}

/-- The first cell of the queue has joined it, and has not been peeled before. -/
private theorem head (h : Queued t p) (hv : p.order[p.peeled]? = some v) : v ∈ p.order.toList ∧ v ∉ p.done := by
  rw [← Array.getElem?_toList] at hv
  obtain ⟨hlt, hget⟩ := List.getElem?_eq_some_iff.mp hv
  have hnodup := h.nodup
  rw [← List.take_append_drop p.peeled p.order.toList, List.drop_eq_getElem_cons hlt, hget,
    List.nodup_append] at hnodup
  constructor
  · exact List.mem_of_getElem? hv
  · intro hdone
    exact hnodup.2.2 v hdone v List.mem_cons_self rfl

section Closed

variable (h : Queued t p) (hv : p.order[p.peeled]? = some v)
  (hclosed : Closed (p.longest.get v) (t.up.get v) { p with peeled := p.peeled + 1 } q)

include h hclosed

/-- The cells of the queue have no open edge, so they are not above the first one. -/
private theorem not_mem_up {w : g.Node} (hw : w ∈ p.order.toList) : w ∉ t.up.get v := by
  intro hup
  have := List.count_pos_iff.mpr hup
  have hcount : q.pending.get w + (t.up.get v).count w = p.pending.get w := hclosed.pending w
  have := (h.mem_order w).mp hw
  omega

/-- The queue receives the cells whose last open edge is closed. -/
private theorem mem_order_of_closed (w : g.Node) : w ∈ q.order.toList ↔ q.pending.get w = 0 := by
  obtain ⟨joined, horder, _, hjoined⟩ := hclosed.order
  have hw : q.pending.get w + (t.up.get v).count w = p.pending.get w := hclosed.pending w
  rw [horder, List.mem_append, h.mem_order, hjoined]
  constructor
  · intro hmem
    rcases hmem with h0 | ⟨_, h0⟩
    · omega
    · exact h0
  · intro h0
    by_cases hup : w ∈ t.up.get v
    · exact .inr ⟨hup, h0⟩
    · rw [List.count_eq_zero_of_not_mem hup] at hw
      exact .inl (by omega)

private theorem nodup_of_closed : q.order.toList.Nodup := by
  obtain ⟨joined, horder, hnodup, hjoined⟩ := hclosed.order
  rw [horder, List.nodup_append]
  refine ⟨h.nodup, hnodup, ?_⟩
  intro w hw u hu hwu
  rw [← hwu] at hu
  exact h.not_mem_up hclosed hw ((hjoined w).mp hu).1

include hv

private theorem of_closed : Queued t q ∧ q.done = p.done ++ [v] := by
  have hpeeled : q.peeled = p.peeled + 1 := hclosed.peeled
  obtain ⟨joined, horder, _⟩ := hclosed.order
  have hdone : q.done = p.done ++ [v] := done_of_append hv hpeeled horder
  refine ⟨⟨?_, h.nodup_of_closed hclosed, h.mem_order_of_closed hclosed, ?_⟩, hdone⟩
  · have hlt := (Array.getElem?_eq_some_iff.mp hv).1
    have hsize := congrArg List.length horder
    simp only [List.length_append, Array.length_toList] at hsize
    omega
  · intro w
    have hw : q.pending.get w + (t.up.get v).count w = p.pending.get w := hclosed.pending w
    have hsum : ∑ u ∈ q.done.toFinset, (t.up.get u).count w =
        (t.up.get v).count w + ∑ u ∈ p.done.toFinset, (t.up.get u).count w := by
      rw [hdone, List.toFinset_append, List.toFinset_cons, List.toFinset_nil, insert_empty_eq, Finset.union_comm,
        ← Finset.insert_eq, Finset.sum_insert (by simpa using (h.head hv).2)]
    have := h.pending_add w
    omega

end Closed

/-- Peeling the first cell of the queue keeps the invariant. -/
theorem step (h : Queued t p) (hv : p.order[p.peeled]? = some v) (hq : p.step t.up v = some q) :
    Queued t q ∧ q.done = p.done ++ [v] :=
  h.of_closed hv (closed_of_foldlM_close hq)

theorem size_order_le (h : Queued t p) : p.order.size ≤ g.size := by
  have := h.nodup.length_le_card
  rwa [Fintype.card_fin, Array.length_toList] at this

private theorem run (bound : Nat) (h : Queued t p) (hbound : g.size ≤ p.peeled + bound)
    (hq : p.run t.up bound = some q) : Queued t q ∧ q.peeled = q.order.size := by
  induction bound generalizing p with
  | zero =>
    obtain rfl : p = q := Option.some.inj hq
    have := h.peeled_le
    have := h.size_order_le
    exact ⟨h, by omega⟩
  | succ bound ih =>
    rw [Peel.run] at hq
    rcases hv : p.order[p.peeled]? with _ | v
    · rw [hv] at hq
      obtain rfl : p = q := Option.some.inj hq
      have := Array.getElem?_eq_none_iff.mp hv
      have := h.peeled_le
      exact ⟨h, by omega⟩
    · rw [hv] at hq
      obtain ⟨p', hp', hrest⟩ := Option.bind_eq_some_iff.mp hq
      have hpeeled : p'.peeled = p.peeled + 1 := (closed_of_foldlM_close hp').peeled
      exact ih (h.step hv hp').1 (by omega) hrest

/-- When the queue is peeled to its end every cell has been peeled, if its edges down are paired with entries up: the
lowest cell left over would have no open edge. -/
private theorem mem_done (hdown : ∀ v u, t.Descends v u → g.elevation u < g.elevation v)
    (hle : ∀ v u, (t.down.get v).count u ≤ (t.up.get u).count v) (h : Queued t p) (hend : p.peeled = p.order.size)
    (v : g.Node) : v ∈ p.done := by
  have hdone : p.done = p.order.toList := by
    rw [done, hend, ← Array.length_toList, List.take_length]
  -- the cells below are lower, so they have been peeled by induction
  induction hn : (g.below v).card using Nat.strongRecOn generalizing v with
  | ind n ih =>
    have hbelow : ∀ u ∈ t.down.get v, u ∈ p.done := by
      intro u hu
      have := Grid.card_below_lt (hdown v u hu)
      exact ih _ (by omega) u rfl
    have hlength : ∑ u ∈ p.done.toFinset, (t.down.get v).count u = (t.down.get v).length :=
      sum_count_eq_length fun u hu => List.mem_toFinset.mpr (hbelow u hu)
    have hsum : ∑ u ∈ p.done.toFinset, (t.down.get v).count u ≤ ∑ u ∈ p.done.toFinset, (t.up.get u).count v :=
      Finset.sum_le_sum fun u _ => hle v u
    have := h.pending_add v
    rw [hdone, h.mem_order]
    omega

/-- When every cell has been peeled, the entries up of a cell are together as many as its edges down. -/
private theorem sum_count_up (h : Queued t p) (hdone : ∀ v, v ∈ p.done) (v : g.Node) :
    ∑ u, (t.up.get u).count v = (t.down.get v).length := by
  have huniv : p.done.toFinset = Finset.univ := Finset.eq_univ_iff_forall.mpr fun u => List.mem_toFinset.mpr (hdone u)
  have hv := h.pending_add v
  rw [huniv, (h.mem_order v).mp (List.mem_of_mem_take (hdone v)), Nat.zero_add] at hv
  exact hv

end Queued

/-! ### The lengths -/

/-- What holds of a recount of linked lists under way. -/
structure Partway (t : Terrain g) (p : Peel g) : Prop extends Queued t p where
  longest_lt {v u : g.Node} : t.Descends v u → u ∈ p.done → p.longest.get u < p.longest.get v
  exists_done {v : g.Node} : p.longest.get v ≠ 0 → ∃ u ∈ p.done, t.Descends v u ∧ p.longest.get v ≤ p.longest.get u + 1

theorem partway_peel (t : Terrain g) : Partway t t.peel where
  toQueued := queued_peel t
  longest_lt _ hu := by simp [done, Terrain.peel] at hu
  exists_done h := by simp [Terrain.peel] at h

namespace Partway

variable {t : Terrain g} {p q : Peel g} {v : g.Node}

/-- The cells above the first cell of the queue have as many open edges as they are asked to close. -/
private theorem count_up_le (hl : t.Linked) (h : Partway t p) (hv : p.order[p.peeled]? = some v) (w : g.Node) :
    (t.up.get v).count w ≤ p.pending.get w := by
  have hsum : ∑ u ∈ insert v p.done.toFinset, (t.up.get u).count w ≤ (t.down.get w).length := by
    simp only [← hl.count_eq]
    exact sum_count_le_length _ _
  rw [Finset.sum_insert (by simpa using (h.toQueued.head hv).2)] at hsum
  have := h.pending_add w
  omega

section Closed

variable (hl : t.Linked) (h : Partway t p) (hv : p.order[p.peeled]? = some v)
  (hclosed : Closed (p.longest.get v) (t.up.get v) { p with peeled := p.peeled + 1 } q)

include h hclosed

private theorem longest_eq {w : g.Node} (hw : w ∈ p.order.toList) : q.longest.get w = p.longest.get w := by
  rw [hclosed.longest, if_neg (h.not_mem_up hclosed hw)]

include hl hv

private theorem longest_lt_of_closed {w u : g.Node} (hd : t.Descends w u) (hu : u ∈ p.done ++ [v]) :
    q.longest.get u < q.longest.get w := by
  have hle : p.longest.get w ≤ q.longest.get w := by
    rw [hclosed.longest]
    split <;> simp
  rw [List.mem_append, List.mem_singleton] at hu
  rcases hu with hu | rfl
  · have := h.longest_lt hd hu
    rw [h.longest_eq hclosed (List.mem_of_mem_take hu)]
    omega
  · rw [h.longest_eq hclosed (h.head hv).1, hclosed.longest, if_pos ((Terrain.mem_up_iff hl).mpr hd)]
    omega

/-- The length of a cell is due to the cell peeled last, or else it has not changed. -/
private theorem exists_of_closed {w : g.Node} (hne : q.longest.get w ≠ 0) :
    ∃ u ∈ p.done ++ [v], t.Descends w u ∧ q.longest.get w ≤ q.longest.get u + 1 := by
  have hqv := h.longest_eq hclosed (h.head hv).1
  have hqw : q.longest.get w =
      if w ∈ t.up.get v then max (p.longest.get w) (p.longest.get v + 1) else p.longest.get w := hclosed.longest w
  by_cases hup : w ∈ t.up.get v ∧ p.longest.get w ≤ p.longest.get v + 1
  · rw [if_pos hup.1] at hqw
    exact ⟨v, by simp, (Terrain.mem_up_iff hl).mp hup.1, by omega⟩
  · have hsame : q.longest.get w = p.longest.get w := by
      rw [hqw]
      split
      · next hw =>
        have : ¬p.longest.get w ≤ p.longest.get v + 1 := fun hle => hup ⟨hw, hle⟩
        omega
      · rfl
    obtain ⟨u, hu, hd, hle⟩ := h.exists_done (v := w) (by omega)
    have := h.longest_eq hclosed (List.mem_of_mem_take hu)
    exact ⟨u, List.mem_append_left _ hu, hd, by omega⟩

end Closed

/-- Peeling the first cell of the queue keeps the invariant. -/
theorem step (hl : t.Linked) (h : Partway t p) (hv : p.order[p.peeled]? = some v) :
    ∃ q, p.step t.up v = some q ∧ Partway t q ∧ q.peeled = p.peeled + 1 := by
  obtain ⟨q, hq⟩ := exists_foldlM_close (p.longest.get v) (p := { p with peeled := p.peeled + 1 })
    fun w => h.count_up_le hl hv w
  have hclosed := closed_of_foldlM_close hq
  obtain ⟨hqueued, hdone⟩ := h.toQueued.step hv hq
  refine ⟨q, hq, ⟨hqueued, ?_, ?_⟩, hclosed.peeled⟩
  · intro w u hd hu
    rw [hdone] at hu
    exact h.longest_lt_of_closed hl hv hclosed hd hu
  · intro w hne
    rw [hdone]
    exact h.exists_of_closed hl hv hclosed hne

private theorem exists_run (hl : t.Linked) (bound : Nat) (h : Partway t p) :
    ∃ q, p.run t.up bound = some q ∧ Partway t q := by
  induction bound generalizing p with
  | zero => exact ⟨p, rfl, h⟩
  | succ bound ih =>
    rw [Peel.run]
    rcases hv : p.order[p.peeled]? with _ | v
    · exact ⟨p, rfl, h⟩
    · obtain ⟨p', hp', hpart, _⟩ := h.step hl hv
      obtain ⟨q, hq, hend⟩ := ih hpart
      refine ⟨q, ?_, hend⟩
      show (p.step t.up v).bind (Peel.run t.up bound) = some q
      rw [hp']
      exact hq

end Partway

/-- Once the queue has been peeled to its end, further steps change nothing. -/
private theorem run_add {up : Table (List g.Node) g.size} {bound : Nat} {p q : Peel g} (h : p.run up bound = some q)
    (hend : q.peeled = q.order.size) (more : Nat) : p.run up (bound + more) = some q := by
  induction bound generalizing p with
  | zero =>
    obtain rfl : p = q := Option.some.inj h
    cases more with
    | zero => rfl
    | succ more => rw [Nat.zero_add, run, Array.getElem?_eq_none (by omega)]
  | succ bound ih =>
    rw [run] at h
    rw [Nat.succ_add, run]
    rcases hv : p.order[p.peeled]? with _ | v
    · rw [hv] at h
      exact h
    · rw [hv] at h
      obtain ⟨p', hp', hrest⟩ := Option.bind_eq_some_iff.mp h
      show (p.step up v).bind (Peel.run up (bound + more)) = some q
      rw [hp']
      exact ih hrest

end Peel

namespace Terrain

variable {t : Terrain g}

/-- A recount that ends has peeled every cell, if the edges down are paired with entries up. -/
private theorem mem_done_of_run_peel (hdown : ∀ v u, t.Descends v u → g.elevation u < g.elevation v)
    (hle : ∀ v u, (t.down.get v).count u ≤ (t.up.get u).count v) {p : Peel g} (hp : t.peel.run t.up g.size = some p) :
    p.Queued t ∧ p.peeled = p.order.size ∧ ∀ v, v ∈ p.done := by
  obtain ⟨hqueued, hend⟩ := (Peel.queued_peel t).run g.size (Nat.le_add_left _ _) hp
  exact ⟨hqueued, hend, hqueued.mem_done hdown hle hend⟩

/-- A recount ends only if no entry up lacks its edge down: the entries up of a cell are at least as many as its edges
down, one by one, and together they are as many. -/
theorem linked_of_recount (hdown : ∀ v u, t.Descends v u → g.elevation u < g.elevation v)
    (hpaired : ∀ v u, t.Descends v u → (t.down.get v).count u = (t.up.get u).count v) {table : Table Nat g.size}
    (h : t.recount = some table) : t.Linked := by
  have hle : ∀ v u, (t.down.get v).count u ≤ (t.up.get u).count v := by
    intro v u
    by_cases hd : t.Descends v u
    · exact Nat.le_of_eq (hpaired v u hd)
    · rw [List.count_eq_zero_of_not_mem hd]
      exact Nat.zero_le _
  obtain ⟨p, hp, _⟩ := Option.map_eq_some_iff.mp h
  obtain ⟨hqueued, _, hdone⟩ := mem_done_of_run_peel hdown hle hp
  refine ⟨fun hd => hdown _ _ hd, ?_⟩
  intro v u
  have hsum : ∑ u, (t.down.get v).count u = ∑ u, (t.up.get u).count v := by
    rw [hqueued.sum_count_up hdone]
    exact sum_count_eq_length fun u _ => Finset.mem_univ u
  exact (Finset.sum_eq_sum_iff_of_le fun u _ => hle v u).mp hsum u (Finset.mem_univ u)

/-- A recount of linked lists peels each cell once and ends with the heights. -/
theorem Linked.exists_run_peel (h : t.Linked) :
    ∃ p, t.peel.run t.up g.size = some p ∧ p.order.toList.Perm g.nodes ∧ p.peeled = g.size ∧
      IsHeight t.Descends p.longest.get := by
  obtain ⟨p, hp, hpart⟩ := (Peel.partway_peel t).exists_run h g.size
  obtain ⟨_, hend, hdone⟩ :=
    mem_done_of_run_peel (fun _ _ => h.elevation_lt) (fun v u => Nat.le_of_eq (h.count_eq v u)) hp
  have hperm : p.order.toList.Perm g.nodes := by
    apply (List.perm_ext_iff_of_nodup hpart.nodup (List.nodup_finRange g.size)).mpr
    intro v
    exact ⟨fun _ => Grid.mem_nodes v, fun _ => List.mem_of_mem_take (hdone v)⟩
  refine ⟨p, hp, hperm, ?_, ?_⟩
  · have := hperm.length_eq
    rw [hend, ← Array.length_toList, this, Grid.nodes, List.length_finRange]
  · constructor
    · intro v u hd
      exact hpart.longest_lt hd (hdone u)
    · intro v hne
      obtain ⟨u, _, hd, hle⟩ := hpart.exists_done hne
      exact ⟨u, hd, hle⟩

theorem Linked.exists_recount (h : t.Linked) : ∃ table, t.recount = some table ∧ IsHeight t.Descends table.get := by
  obtain ⟨p, hp, _, _, hheight⟩ := h.exists_run_peel
  exact ⟨p.longest, by rw [recount, hp, Option.map_some], hheight⟩

/-- The recount of a sound terrain is its table of lengths. -/
theorem Sound.recount_eq (h : t.Sound) : t.recount = some t.longest := by
  obtain ⟨table, htable, hheight⟩ := h.exists_recount
  rw [htable, Option.some.injEq]
  exact Table.ext_get fun v => congrFun (hheight.unique h.height) v

/-- If the edges down of a terrain lead to lower cells and are recorded equally often as edges up, its recount peels
each cell once and finds the lengths of the longest descents. -/
theorem recount_exact (t : Terrain g) :
    ((∀ v u, t.Descends v u → g.elevation u < g.elevation v) →
      (∀ v u, (t.down.get v).count u = (t.up.get u).count v) →
        ∃ p, (∀ bound, g.size ≤ bound → t.peel.run t.up bound = some p) ∧ (∀ v, p.order.toList.count v = 1) ∧
          p.peeled = p.order.size ∧ t.recount = some p.longest ∧
          ∀ v, IsGreatest (walkLengths t.Descends v) (p.longest.get v)) ∧
      (t.Reachable → t.recount = some t.longest) := by
  refine ⟨?_, fun h => h.sound.recount_eq⟩
  intro hdown hcount
  have hlinked : t.Linked := ⟨fun hd => hdown _ _ hd, hcount⟩
  obtain ⟨p, hp, hperm, hpeeled, hheight⟩ := hlinked.exists_run_peel
  have hend : p.peeled = p.order.size := by
    rw [hpeeled, ← Array.length_toList, hperm.length_eq, Grid.nodes, List.length_finRange]
  refine ⟨p, ?_, ?_, hend, by rw [recount, hp, Option.map_some], hheight.isGreatest⟩
  · intro bound hbound
    obtain ⟨more, rfl⟩ := Nat.exists_eq_add_of_le hbound
    exact Peel.run_add hp hend more
  · intro v
    rw [hperm.count_eq]
    exact List.count_eq_one_of_mem (List.nodup_finRange g.size) (Grid.mem_nodes v)

/-- The lists hold one edge twice, in an order that no run of calls gives, and lengths and summits that are none. -/
theorem recount_exact_stairs :
    let t : Terrain Grid.stairs :=
      { down := #v[[⟨1, by decide⟩, ⟨2, by decide⟩, ⟨1, by decide⟩], [⟨2, by decide⟩], []]
        up := #v[[], [⟨0, by decide⟩, ⟨0, by decide⟩], [⟨1, by decide⟩, ⟨0, by decide⟩]]
        longest := #v[7, 7, 7]
        summit := #v[false, true, false] }
    (∀ v u, t.Descends v u → Grid.stairs.elevation u < Grid.stairs.elevation v) ∧
      (∀ v u, (t.down.get v).count u = (t.up.get u).count v) ∧
      (∃ p, (∀ bound, 3 ≤ bound → t.peel.run t.up bound = some p) ∧ (∀ v, p.order.toList.count v = 1) ∧
        p.peeled = p.order.size ∧ t.recount = some p.longest ∧
        ∀ v, IsGreatest (walkLengths t.Descends v) (p.longest.get v)) ∧
      t.recount.map Vector.toList = some [2, 1, 0] ∧
      (build Grid.stairs).Reachable ∧ (build Grid.stairs).recount = some (build Grid.stairs).longest := by
  intro t
  have hdown : ∀ v u, t.Descends v u → Grid.stairs.elevation u < Grid.stairs.elevation v := by
    unfold Descends
    decide
  have hcount : ∀ v u, (t.down.get v).count u = (t.up.get u).count v := by decide
  exact ⟨hdown, hcount, (recount_exact t).1 hdown hcount, by decide, .build, (recount_exact _).2 .build⟩

end Terrain

end Downhill
