import Downhill.Proofs.Report
import Mathlib.Order.Lattice.Nat

/-!
# What an edge raises

The descents that a new edge makes possible lead to its upper cell, over the edge, and on from its lower cell. So the
new length of a cell is the greatest of its old length and of the lengths that the new length of the upper cell and a
descent to that cell come to together (`isGreatest_longest_insert`).

A raise stops at each cell that it does not raise. A flood stops nowhere: level by level it goes on to all cells above,
and proposes a length to a cell as often as there are levels on which it reaches it. This changes nothing, for the
lengths after a flood are the greatest of the same lengths (`Flood.reached_run`).

* `walk_link_iff`               : the descents with a new edge;
* `longest_insert_of_reachable` : what an edge raises, and that a flood raises the same.
-/

namespace Downhill

variable {g : Grid}

/-! ### Floods -/

/-- The state of a flood. -/
structure Flood (g : Grid) where
  /-- The lengths known so far. -/
  longest : Table Nat g.size
  /-- The length proposed to the frontier. -/
  proposed : Nat
  /-- The cells reached next, once for each edge that leads to them. -/
  frontier : List g.Node

namespace Flood

/-- Sets the length of each cell of a list in turn to the proposed one, if that is greater. -/
def lift (proposed : Nat) (cells : List g.Node) (longest : Table Nat g.size) : Table Nat g.size :=
  cells.foldl (fun longest v => longest.put v (max (longest.get v) proposed)) longest

/-- One edge up, from each cell of the frontier to all cells above it. -/
def step (up : Table (List g.Node) g.size) (w : Flood g) : Flood g where
  longest := lift w.proposed w.frontier w.longest
  proposed := w.proposed + 1
  frontier := w.frontier.flatMap fun v => up.get v

/-- The state after the given number of levels. -/
def run (up : Table (List g.Node) g.size) (w : Flood g) : Nat → Flood g
  | 0 => w
  | k + 1 => (run up w k).step up

private theorem get_lift (proposed : Nat) (cells : List g.Node) (longest : Table Nat g.size) (v : g.Node) :
    (lift proposed cells longest).get v = if v ∈ cells then max (longest.get v) proposed else longest.get v := by
  unfold lift
  induction cells generalizing longest with
  | nil => rfl
  | cons u cells ih =>
    rw [List.foldl_cons, ih, Table.get_put]
    by_cases huv : v = u
    · subst huv
      simp
    · simp [huv]

/-- A flood after `k` levels from the cell `top` with the length `base`: it has reached the cells `k` steps above the
top, and each length is the greatest of the one before and of those proposed. -/
structure Reached (r : g.Node → g.Node → Prop) (top : g.Node) (base : Nat) (before : Table Nat g.size) (k : Nat)
    (w : Flood g) : Prop where
  proposed_eq : w.proposed = base + k
  mem_frontier_iff (v : g.Node) : v ∈ w.frontier ↔ Walk r k v top
  isGreatest (v : g.Node) :
    IsGreatest {n | n = before.get v ∨ ∃ j < k, Walk r j v top ∧ n = base + j} (w.longest.get v)

variable {up : Table (List g.Node) g.size} {r : g.Node → g.Node → Prop} {top : g.Node} {base : Nat}
  {before : Table Nat g.size}

private theorem reached_start : Reached r top base before 0 ⟨before, base, [top]⟩ where
  proposed_eq := rfl
  mem_frontier_iff v := by rw [List.mem_singleton, walk_zero_iff]
  isGreatest v := by
    refine ⟨.inl rfl, ?_⟩
    rintro n (rfl | ⟨j, hj, _⟩)
    · exact Nat.le_refl _
    · contradiction

private theorem Reached.step (hup : ∀ u v, v ∈ up.get u ↔ r v u) {k : Nat} {w : Flood g}
    (h : Reached r top base before k w) : Reached r top base before (k + 1) (w.step up) where
  proposed_eq := congrArg (· + 1) h.proposed_eq
  mem_frontier_iff v := by
    show v ∈ w.frontier.flatMap (fun u => up.get u) ↔ _
    simp only [List.mem_flatMap, h.mem_frontier_iff, hup, walk_succ_iff]
    exact exists_congr fun u => and_comm
  isGreatest v := by
    obtain ⟨hmem, hle⟩ := h.isGreatest v
    have hlift : (w.step up).longest.get v =
        if v ∈ w.frontier then max (w.longest.get v) (base + k) else w.longest.get v :=
      h.proposed_eq ▸ get_lift w.proposed w.frontier w.longest v
    have hold : ∀ n, (n = before.get v ∨ ∃ j < k, Walk r j v top ∧ n = base + j) →
        n = before.get v ∨ ∃ j < k + 1, Walk r j v top ∧ n = base + j :=
      fun n hn => hn.imp_right fun ⟨j, hj, hw⟩ => ⟨j, Nat.lt_succ_of_lt hj, hw⟩
    rw [hlift]
    constructor
    · split
      · next hv =>
        rcases Nat.le_total (base + k) (w.longest.get v) with hmax | hmax
        · rw [Nat.max_eq_left hmax]
          exact hold _ hmem
        · rw [Nat.max_eq_right hmax]
          exact .inr ⟨k, Nat.lt_succ_self k, (h.mem_frontier_iff v).mp hv, rfl⟩
      · exact hold _ hmem
    · rintro n (rfl | ⟨j, hj, hw, rfl⟩)
      · have := hle (.inl rfl)
        split <;> omega
      · -- the last level is new, and what was proposed on the levels before is known already
        rcases Nat.lt_succ_iff_lt_or_eq.mp hj with hj | rfl
        · have := hle (.inr ⟨j, hj, hw, rfl⟩)
          split <;> omega
        · rw [if_pos ((h.mem_frontier_iff v).mpr hw)]
          exact Nat.le_max_right _ _

theorem reached_run (hup : ∀ u v, v ∈ up.get u ↔ r v u) (k : Nat) :
    Reached r top base before k (run up ⟨before, base, [top]⟩ k) := by
  induction k with
  | zero => exact reached_start
  | succ k ih => exact ih.step hup

end Flood

namespace Terrain

variable {t : Terrain g}

/-! ### Descents with a new edge -/

/-- No descent leads back up over an edge. -/
theorem Linked.not_walk_lower_upper (h : t.Linked) (e : Edge g) {n : Nat} : ¬Walk t.Descends n e.lower e.upper := by
  intro hw
  have := h.elevation_le hw
  have := e.descends
  omega

/-- A descent with a new edge does not pass it, or passes it once. -/
theorem walk_link_iff (h : t.Linked) {e : Edge g} {n : Nat} {a c : g.Node} :
    Walk (link e t).Descends n a c ↔ Walk t.Descends n a c ∨
      ∃ j m, Walk t.Descends j a e.upper ∧ Walk t.Descends m e.lower c ∧ n = j + 1 + m := by
  have hmono : ∀ {n a c}, Walk t.Descends n a c → Walk (link e t).Descends n a c :=
    fun hw => hw.mono fun _ _ hd => descends_link.mpr (.inl hd)
  constructor
  · intro hw
    induction hw with
    | nil a => exact .inl (.nil a)
    | cons hd _ ih =>
      rcases descends_link.mp hd with hd | ⟨rfl, rfl⟩
      · rcases ih with hw | ⟨j, m, hw, hw', rfl⟩
        · exact .inl (.cons hd hw)
        · exact .inr ⟨j + 1, m, .cons hd hw, hw', by omega⟩
      · rcases ih with hw | ⟨j, m, hw, _, _⟩
        · exact .inr ⟨0, _, .nil _, hw, by omega⟩
        · exact absurd hw (h.not_walk_lower_upper e)
  · rintro (hw | ⟨j, m, hw, hw', rfl⟩)
    · exact hmono hw
    · exact ((hmono hw).trans (.single (descends_link.mpr (.inr ⟨rfl, rfl⟩)))).trans (hmono hw')

/-- The descents to the upper cell of a new edge are those from before. -/
theorem walk_link_upper_iff (h : t.Linked) {e : Edge g} {n : Nat} {a : g.Node} :
    Walk (link e t).Descends n a e.upper ↔ Walk t.Descends n a e.upper := by
  rw [walk_link_iff h, or_iff_left]
  rintro ⟨_, _, _, hw, _⟩
  exact h.not_walk_lower_upper e hw

/-! ### The new lengths -/

/-- The length of the upper cell of an edge once the edge is recorded. -/
def raisedLength (t : Terrain g) (e : Edge g) : Nat :=
  max (t.longest.get e.upper) (t.longest.get e.lower + 1)

theorem isGreatest_longest_insert (h : t.Sound) (e : Edge g) (v : g.Node) :
    IsGreatest {n | n = t.longest.get v ∨ ∃ j, Walk t.Descends j v e.upper ∧ n = t.raisedLength e + j}
      ((t.insert e).1.longest.get v) := by
  obtain ⟨⟨c, hw⟩, hle⟩ := (h.isHeight_insert h.height e).isGreatest v
  have hold : t.longest.get v ≤ (t.insert e).1.longest.get v := by
    obtain ⟨b, hb⟩ := h.height.exists_walk v
    exact hle ⟨b, (walk_link_iff h.toLinked).mpr (.inl hb)⟩
  have hnew : ∀ j, Walk t.Descends j v e.upper → t.raisedLength e + j ≤ (t.insert e).1.longest.get v := by
    intro j hj
    obtain ⟨b, hb⟩ := h.height.exists_walk e.upper
    obtain ⟨b', hb'⟩ := h.height.exists_walk e.lower
    have hupper := hle ⟨b, (walk_link_iff h.toLinked).mpr (.inl (hj.trans hb))⟩
    have hlower := hle ⟨b', (walk_link_iff h.toLinked).mpr (.inr ⟨j, _, hj, hb', rfl⟩)⟩
    unfold raisedLength
    omega
  constructor
  · -- a longest descent was there before, or it passes the edge
    rcases (walk_link_iff h.toLinked).mp hw with hw | ⟨j, m, hj, hm, heq⟩
    · have := h.height.add_le hw
      exact .inl (by omega)
    · have := h.height.add_le hm
      have := hnew j hj
      refine .inr ⟨j, hj, ?_⟩
      unfold raisedLength at this ⊢
      omega
  · rintro n (rfl | ⟨j, hj, rfl⟩)
    · exact hold
    · exact hnew j hj

theorem Sound.longest_le_insertAll (h : t.Sound) (edges : List (Edge g)) (v : g.Node) :
    t.longest.get v ≤ (t.insertAll edges).longest.get v := by
  induction edges generalizing t with
  | nil => exact Nat.le_refl _
  | cons e edges ih =>
    have hle : t.longest.get v ≤ (t.insert e).1.longest.get v := (isGreatest_longest_insert h e v).2 (.inl rfl)
    exact hle.trans (ih (h.insert e))

/-- The steps of a descent to a cell are bounded, so one of the descents to it has the most. -/
private theorem exists_isGreatest_walk (h : t.Linked) {a c : g.Node} (hex : ∃ n, Walk t.Descends n a c) :
    ∃ D, IsGreatest {n | Walk t.Descends n a c} D := by
  have hbounded : BddAbove {n | Walk t.Descends n a c} := by
    refine ⟨(g.below a).card, ?_⟩
    intro n hw
    have := h.add_card_below_le hw
    omega
  exact ⟨sSup {n | Walk t.Descends n a c}, Nat.sSup_mem hex hbounded, fun _ hn => le_csSup hbounded hn⟩

private theorem Sound.longest_insert_of_isGreatest (h : t.Sound) {e : Edge g} {a : g.Node} {D : Nat}
    (hD : IsGreatest {n | Walk t.Descends n a e.upper} D) :
    (t.insert e).1.longest.get a = max (t.longest.get a) (t.raisedLength e + D) := by
  obtain ⟨hmem, hle⟩ := isGreatest_longest_insert h e a
  have hold := hle (.inl rfl)
  have hnew := hle (.inr ⟨D, hD.1, rfl⟩)
  rcases hmem with hmem | ⟨j, hj, hmem⟩
  · omega
  · have := hD.2 hj
    omega

private theorem Sound.longest_insert_of_forall_not (h : t.Sound) {e : Edge g} {a : g.Node}
    (ha : ∀ n, ¬Walk t.Descends n a e.upper) : (t.insert e).1.longest.get a = t.longest.get a := by
  rcases (isGreatest_longest_insert h e a).1 with hmem | ⟨j, hj, _⟩
  · exact hmem
  · exact absurd hj (ha j)

theorem Sound.longest_insert_upper (h : t.Sound) (e : Edge g) :
    (t.insert e).1.longest.get e.upper = t.raisedLength e := by
  have hzero : IsGreatest {n | Walk t.Descends n e.upper e.upper} 0 := by
    refine ⟨.nil e.upper, ?_⟩
    intro n hw
    have := h.add_card_below_le hw
    omega
  rw [h.longest_insert_of_isGreatest hzero, raisedLength]
  omega

/-- An edge from a cell that is long enough already raises nothing. -/
private theorem Sound.longest_insert_of_lt (h : t.Sound) {e : Edge g}
    (hlt : t.longest.get e.lower < t.longest.get e.upper) : (t.insert e).1.longest = t.longest := by
  apply Table.ext_get
  intro v
  rcases (isGreatest_longest_insert h e v).1 with hmem | ⟨j, hj, hmem⟩
  · exact hmem
  · have := (isGreatest_longest_insert h e v).2 (.inl rfl)
    have := h.height.add_le hj
    unfold raisedLength at hmem
    omega

/-! ### Raises and floods -/

/-- The flood that an edge starts, after the given number of levels. -/
def flood (t : Terrain g) (e : Edge g) (levels : Nat) : Flood g :=
  Flood.run (link e t).up ⟨t.longest, t.raisedLength e, [e.upper]⟩ levels

private theorem reached_flood (h : t.Linked) (e : Edge g) (k : Nat) :
    Flood.Reached t.Descends e.upper (t.raisedLength e) t.longest k (t.flood e k) := by
  have hreached : Flood.Reached (link e t).Descends e.upper (t.raisedLength e) t.longest k (t.flood e k) :=
    Flood.reached_run (fun _ _ => mem_up_iff (h.link e)) k
  refine ⟨hreached.proposed_eq, ?_, ?_⟩
  · intro v
    exact (hreached.mem_frontier_iff v).trans (walk_link_upper_iff h)
  · intro v
    have hgreatest := hreached.isGreatest v
    simp only [walk_link_upper_iff h] at hgreatest
    exact hgreatest

private theorem lt_size_of_walk (h : t.Linked) {n : Nat} {a c : g.Node} (hw : Walk t.Descends n a c) : n < g.size := by
  have := h.add_card_below_le hw
  have := Grid.card_below_lt_size a
  omega

private theorem frontier_flood (h : t.Linked) (e : Edge g) : (t.flood e g.size).frontier = [] := by
  apply List.eq_nil_iff_forall_not_mem.mpr
  intro v hv
  exact Nat.lt_irrefl _ (lt_size_of_walk h (((reached_flood h e g.size).mem_frontier_iff v).mp hv))

theorem frontier_run_wave (h : t.Linked) (e : Edge g) :
    ((wave e t.longest).run (link e t).up g.size).frontier = [] := by
  apply Wave.frontier_run
  · intro u v hv
    exact (h.link e).elevation_lt_of_mem_up hv
  · intro v _
    omega

/-- A flood ends with the lengths that the raise ends with. -/
private theorem Sound.longest_insert_eq_flood (h : t.Sound) (e : Edge g) :
    (t.insert e).1.longest = (t.flood e g.size).longest := by
  apply Table.ext_get
  intro v
  refine (isGreatest_longest_insert h e v).unique ?_
  have hsets : {n | n = t.longest.get v ∨ ∃ j, Walk t.Descends j v e.upper ∧ n = t.raisedLength e + j} =
      {n | n = t.longest.get v ∨ ∃ j < g.size, Walk t.Descends j v e.upper ∧ n = t.raisedLength e + j} := by
    ext n
    refine or_congr_right (exists_congr fun j => ?_)
    exact ⟨fun hj => ⟨lt_size_of_walk h.toLinked hj.1, hj⟩, fun hj => hj.2⟩
  rw [hsets]
  exact (reached_flood h.toLinked e g.size).isGreatest v

/-- An edge raises the cells above it by the longest descents to its upper cell, and no others. A flood that does not
stop at cells that are long enough ends with the same lengths. -/
theorem longest_insert_of_reachable (h : t.Reachable) (e : Edge g) :
    let b := max (t.longest.get e.upper) (t.longest.get e.lower + 1)
    let after := (t.insert e).1
    after.longest.get e.upper = b ∧
      (∀ a, (∃ n, Walk t.Descends n a e.upper) →
        ∃ D, IsGreatest {n | Walk t.Descends n a e.upper} D ∧ IsGreatest {n | Walk after.Descends n a e.upper} D ∧
          after.longest.get a = max (t.longest.get a) (b + D)) ∧
      (∀ a, (∀ n, ¬Walk t.Descends n a e.upper) → after.longest.get a = t.longest.get a) ∧
      (∀ k, (t.flood e k).proposed = b + k ∧ ∀ a, a ∈ (t.flood e k).frontier ↔ Walk t.Descends k a e.upper) ∧
      (t.flood e g.size).frontier = [] ∧ ((wave e t.longest).run after.up g.size).frontier = [] ∧
      (t.flood e g.size).longest = after.longest ∧
      (b = t.longest.get e.upper → after.longest = t.longest) ∧
      ∀ later a, t.longest.get a ≤ (after.insertAll later).longest.get a := by
  intro b after
  have hsound := h.sound
  refine ⟨hsound.longest_insert_upper e, ?_, fun a => hsound.longest_insert_of_forall_not, ?_,
    frontier_flood hsound.toLinked e, frontier_run_wave hsound.toLinked e, (hsound.longest_insert_eq_flood e).symm, ?_,
    ?_⟩
  · intro a hex
    obtain ⟨D, hD⟩ := exists_isGreatest_walk hsound.toLinked hex
    have hafter : {n | Walk after.Descends n a e.upper} = {n | Walk t.Descends n a e.upper} :=
      Set.ext fun n => walk_link_upper_iff hsound.toLinked
    exact ⟨D, hD, hafter ▸ hD, hsound.longest_insert_of_isGreatest hD⟩
  · intro k
    have hreached := reached_flood hsound.toLinked e k
    exact ⟨hreached.proposed_eq, hreached.mem_frontier_iff⟩
  · intro hb
    apply hsound.longest_insert_of_lt
    omega
  · intro later
    exact hsound.longest_le_insertAll (e :: later)

/-- The highest cell is reached on two levels: on the first it knows the proposed length, on the second it is raised. -/
theorem longest_insert_of_reachable_valley :
    let t := (bare Grid.valley).insertAll [⟨⟨4, by decide⟩, ⟨3, by decide⟩, by decide⟩,
      ⟨⟨3, by decide⟩, ⟨0, by decide⟩, by decide⟩, ⟨⟨4, by decide⟩, ⟨0, by decide⟩, by decide⟩]
    let e : Edge Grid.valley := ⟨⟨0, by decide⟩, ⟨1, by decide⟩, by decide⟩
    let top : Grid.valley.Node := ⟨4, by decide⟩
    t.Reachable ∧ t.longest.get top = 2 ∧ (t.insert e).1.longest.get e.upper = 1 ∧
      (∃ n, Walk t.Descends n top e.upper) ∧ (t.insert e).1.longest.get top = 3 ∧
      ∃ D, IsGreatest {n | Walk t.Descends n top e.upper} D ∧ (t.insert e).1.longest.get top = max 2 (1 + D) := by
  intro t e top
  have ht : t.Reachable := Reachable.bare.insertAll _
  have hd : t.Descends top e.upper := by
    show e.upper ∈ t.down.get top
    decide
  obtain ⟨hupper, habove, _⟩ := longest_insert_of_reachable ht e
  obtain ⟨D, hD, _, hlongest⟩ := habove top ⟨1, .single hd⟩
  exact ⟨ht, by decide, hupper, ⟨1, .single hd⟩, by decide, D, hD, hlongest⟩

end Terrain

end Downhill
