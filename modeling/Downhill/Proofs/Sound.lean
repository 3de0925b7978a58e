import Downhill.Proofs.Links
import Downhill.Proofs.Raise

/-!
# Sound terrains

The data of a sound terrain agree with each other: the lists of edges lead down and hold the same edges equally
often, the lengths are the heights of the cells, and the summits are the cells with an edge down and none up. The
terrain without edges is sound and recording an edge keeps a terrain sound, so each reachable terrain is sound.

* `Sound.insert`, `Reachable.sound` : one edge, and any run;
* `isGreatest_longest_run`          : the lengths after each step of a run;
* `isSummit_iff_of_reachable`       : the set of summits of a reachable terrain;
* `Sound.longest_le_card_below`     : lengths are bounded by the elevations of the grid.
-/

namespace Downhill

/-- Three cells in a row, each lower than the one before. -/
def Grid.stairs : Grid where
  width := 3
  height := 1
  cells := #v[3, 2, 1]
  width_pos := by decide
  height_pos := by decide
  addressable := by decide

namespace Terrain

variable {g : Grid}

/-- Some edge leads from `v` down to `u`. -/
def Descends (t : Terrain g) (v u : g.Node) : Prop :=
  u ∈ t.down.get v

/-- The lists of edges lead down, and the two families hold the same edges equally often. -/
structure Linked (t : Terrain g) : Prop where
  elevation_lt {v u : g.Node} : t.Descends v u → g.elevation u < g.elevation v
  count_eq (v u : g.Node) : (t.down.get v).count u = (t.up.get u).count v

/-- The lists, the lengths and the summits of a terrain agree. -/
structure Sound (t : Terrain g) : Prop extends Linked t where
  height : IsHeight t.Descends t.longest.get
  summit_iff (v : g.Node) : t.summit.get v = true ↔ t.up.get v = [] ∧ t.down.get v ≠ []

/-! ### The lists -/

theorem mem_up_iff {t : Terrain g} (h : t.Linked) {v u : g.Node} : v ∈ t.up.get u ↔ t.Descends v u := by
  rw [Descends, ← List.count_pos_iff, ← List.count_pos_iff, h.count_eq]

theorem Linked.elevation_lt_of_mem_up {t : Terrain g} (h : t.Linked) {u v : g.Node} (hv : v ∈ t.up.get u) :
    g.elevation u < g.elevation v :=
  h.elevation_lt ((mem_up_iff h).mp hv)

theorem Linked.elevation_le {t : Terrain g} (h : t.Linked) {n : Nat} {v u : g.Node} (hw : Walk t.Descends n v u) :
    g.elevation u ≤ g.elevation v :=
  elevation_le_of_walk (fun _ _ => h.elevation_lt) hw

theorem Linked.add_card_below_le {t : Terrain g} (h : t.Linked) {n : Nat} {v u : g.Node}
    (hw : Walk t.Descends n v u) : (g.below u).card + n ≤ (g.below v).card :=
  hw.add_card_below_le fun _ _ => h.elevation_lt

private theorem count_down_link (e : Edge g) (t : Terrain g) (v u : g.Node) :
    ((link e t).down.get v).count u = (t.down.get v).count u + if v = e.upper ∧ u = e.lower then 1 else 0 := by
  rw [down_link]
  by_cases hv : v = e.upper
  · rw [if_pos hv, List.count_append, List.count_singleton]
    by_cases hu : u = e.lower
    · simp [hv, hu]
    · simp [hu, Ne.symm hu]
  · simp [hv]

private theorem count_up_link (e : Edge g) (t : Terrain g) (v u : g.Node) :
    ((link e t).up.get u).count v = (t.up.get u).count v + if v = e.upper ∧ u = e.lower then 1 else 0 := by
  rw [up_link]
  by_cases hu : u = e.lower
  · rw [if_pos hu, List.count_append, List.count_singleton]
    by_cases hv : v = e.upper
    · simp [hv, hu]
    · simp [hv, Ne.symm hv]
  · simp [hu]

theorem descends_link {e : Edge g} {t : Terrain g} {v u : g.Node} :
    (link e t).Descends v u ↔ t.Descends v u ∨ v = e.upper ∧ u = e.lower := by
  rw [Descends, down_link]
  split
  · next h => simp [Descends, h]
  · next h => simp [Descends, h]

private theorem linked_bare : (bare g).Linked where
  elevation_lt h := by simp [Descends] at h
  count_eq := by simp

theorem Linked.link {t : Terrain g} (h : t.Linked) (e : Edge g) : (Terrain.link e t).Linked where
  elevation_lt hd := by
    rcases descends_link.mp hd with hd | ⟨rfl, rfl⟩
    · exact h.elevation_lt hd
    · exact e.descends
  count_eq v u := by rw [count_down_link, count_up_link, h.count_eq]

/-! ### The lengths -/

theorem longest_insert (t : Terrain g) (e : Edge g) :
    (t.insert e).1.longest = ((wave e t.longest).run (link e t).up g.size).longest := rfl

/-- At first only the upper cell of the new edge is pending. -/
private theorem pending_wave {t : Terrain g} (h : IsHeight t.Descends t.longest.get) (e : Edge g) :
    (wave e t.longest).Pending (link e t).Descends where
  settled {v u} hd := by
    rcases descends_link.mp hd with hd | ⟨rfl, rfl⟩
    · exact .inl (h.lt_of_rel hd)
    · exact .inr ⟨List.mem_singleton_self _, Nat.lt_succ_self _⟩
  supported {v} hne := by
    obtain ⟨u, hd, hle⟩ := h.exists_rel hne
    exact ⟨u, descends_link.mpr (.inl hd), hle⟩
  reached {v} hmem := by
    obtain rfl : v = e.upper := List.mem_singleton.mp hmem
    exact ⟨e.lower, descends_link.mpr (.inr ⟨rfl, rfl⟩), Nat.le_refl _⟩

theorem Linked.isHeight_insert {t : Terrain g} (hl : t.Linked) (h : IsHeight t.Descends t.longest.get)
    (e : Edge g) : IsHeight (Terrain.link e t).Descends (t.insert e).1.longest.get := by
  have hlink := hl.link e
  rw [longest_insert]
  exact (pending_wave h e).isHeight_run (fun u v => mem_up_iff hlink) fun v u => hlink.elevation_lt

/-! ### The summits -/

private theorem get_foldl_left (summit : Table Bool g.size) (u v : g.Node) :
    ((if summit.get u then [SummitChange.left u] else []).foldl SummitChange.apply summit).get v =
      if v = u then false else summit.get v := by
  split
  · exact Table.get_put summit u v false
  · next h =>
    split
    · next hv => simpa [hv] using h
    · rfl

/-- Carrying out the changes takes the lower cell out and puts the upper cell in, if no edge leads to that one. -/
theorem get_foldl_summitChanges (e : Edge g) (up : Table (List g.Node) g.size) (summit : Table Bool g.size)
    (v : g.Node) :
    ((summitChanges e up summit).foldl SummitChange.apply summit).get v =
      if v = e.lower then false else if v = e.upper then summit.get v || (up.get v).isEmpty else summit.get v := by
  have hne := e.upper_ne_lower
  have hleft := get_foldl_left summit e.lower v
  unfold summitChanges
  rw [List.foldl_append]
  -- the upper cell is not the lower one, so taking that out does not affect whether it is a summit
  generalize List.foldl SummitChange.apply summit (if summit.get e.lower then [.left e.lower] else []) = rest at hleft ⊢
  by_cases henter : (up.get e.upper).isEmpty && !summit.get e.upper
  · rw [if_pos henter]
    show (rest.put e.upper true).get v = _
    rw [Table.get_put, hleft]
    by_cases hv : v = e.upper
    · rw [Bool.and_eq_true] at henter
      simp [hv, hne, henter.1]
    · simp [hv]
  · rw [if_neg henter]
    show rest.get v = _
    rw [hleft]
    by_cases hv : v = e.upper
    · rw [Bool.and_eq_true, Bool.not_eq_true', not_and, Bool.not_eq_false] at henter
      rw [if_neg (by rw [hv]; exact hne), if_neg (by rw [hv]; exact hne), if_pos hv, hv, Bool.eq_iff_iff,
        Bool.or_eq_true]
      exact ⟨.inl, fun h => h.elim id henter⟩
    · simp [hv]

private theorem Sound.summit_insert {t : Terrain g} (h : t.Sound) (e : Edge g) (v : g.Node) :
    (t.insert e).1.summit.get v = true ↔ (link e t).up.get v = [] ∧ (link e t).down.get v ≠ [] := by
  have hne := e.upper_ne_lower
  rw [show (t.insert e).1.summit.get v = _ from get_foldl_summitChanges e (link e t).up t.summit v]
  by_cases hl : v = e.lower
  · rw [if_pos hl, up_link, if_pos hl]
    simp
  · rw [if_neg hl, up_link, if_neg hl, down_link]
    by_cases hu : v = e.upper
    · rw [if_pos hu, if_pos hu, Bool.or_eq_true, h.summit_iff, List.isEmpty_iff]
      simp
      exact fun h' _ => h'
    · rw [if_neg hu, if_neg hu]
      exact h.summit_iff v

/-! ### Runs -/

theorem sound_bare : (bare g).Sound where
  toLinked := linked_bare
  height := {
    lt_of_rel := fun h => by simp [Descends] at h
    exists_rel := fun h => by simp at h }
  summit_iff := by simp

theorem Sound.insert {t : Terrain g} (h : t.Sound) (e : Edge g) : (t.insert e).1.Sound where
  elevation_lt := (h.link e).elevation_lt
  count_eq := (h.link e).count_eq
  height := h.isHeight_insert h.height e
  summit_iff := h.summit_insert e

theorem Sound.insertAll {t : Terrain g} (h : t.Sound) (edges : List (Edge g)) : (t.insertAll edges).Sound := by
  induction edges generalizing t with
  | nil => exact h
  | cons e edges ih => exact ih (h.insert e)

theorem Reachable.sound {t : Terrain g} (h : t.Reachable) : t.Sound := by
  induction h with
  | bare => exact sound_bare
  | build => exact sound_bare.insertAll g.edges
  | insert _ e ih => exact ih.insert e

/-- A length is at most the number of different elevations below the cell. -/
theorem Sound.longest_le_card_below {t : Terrain g} (h : t.Sound) (v : g.Node) :
    t.longest.get v ≤ (g.below v).card := by
  obtain ⟨u, hw⟩ := h.height.exists_walk v
  have := h.add_card_below_le hw
  omega

/-! ### Lengths and summits along a run -/

/-- After each step of a run of calls the length of a cell is the greatest number of steps of a walk along the lists of
edges down. A call that names no edge changes nothing. -/
theorem isGreatest_longest_run {start : Terrain g} (hs : start = bare g ∨ start = build g)
    (calls : List (Nat × Nat)) (k : Nat) :
    let t := (start.insertEach (calls.take k)).1
    (∀ v, IsGreatest (walkLengths t.Descends v) (t.longest.get v)) ∧
      (∀ v, t.longest.get v = (((t.down.get v).map fun u => 1 + t.longest.get u).max?).getD 0) ∧
      ∀ upper lower, (∀ u l : g.Node, u.val = upper → l.val = lower → g.elevation u ≤ g.elevation l) →
        t.insertEach [(upper, lower)] = (t, [none]) := by
  intro t
  have hstart : start.Reachable := by
    rcases hs with rfl | rfl
    · exact .bare
    · exact .build
  have hheight : IsHeight t.Descends t.longest.get := (hstart.insertEach (calls.take k)).sound.height
  refine ⟨hheight.isGreatest, ?_, ?_⟩
  · intro v
    exact hheight.eq_max fun u => Iff.rfl
  · intro upper lower h
    exact insertEach_of_refused t h

theorem isGreatest_longest_run_stairs :
    let start := build Grid.stairs
    let t := (start.insertEach ([(0, 2), (7, 1), (2, 0), (0, 1)].take 3)).1
    let v : Grid.stairs.Node := ⟨0, by decide⟩
    (start = bare Grid.stairs ∨ start = build Grid.stairs) ∧
      t.longest.get v = 2 ∧ IsGreatest (walkLengths t.Descends v) (t.longest.get v) :=
  ⟨.inr rfl, by decide,
    (isGreatest_longest_run (g := Grid.stairs) (.inr rfl) [(0, 2), (7, 1), (2, 0), (0, 1)] 3).1 _⟩

/-- The summits of a reachable terrain are exactly the cells with an edge down and none up, and each counts once. -/
theorem isSummit_iff_of_reachable {t : Terrain g} (h : t.Reachable) :
    (∀ i, t.isSummit i = true ↔ ∃ v : g.Node, v.val = i ∧ t.up.get v = [] ∧ t.down.get v ≠ []) ∧
      t.summits.length = (Finset.univ.filter fun v => t.up.get v = [] ∧ t.down.get v ≠ []).card := by
  have hsound := h.sound
  constructor
  · intro i
    unfold isSummit Grid.nodeOfNat?
    constructor
    · intro hi
      split at hi
      · next v hv =>
        rw [Option.dite_none_right_eq_some] at hv
        obtain ⟨_, hv⟩ := hv
        cases hv
        exact ⟨_, rfl, (hsound.summit_iff _).mp hi⟩
      · contradiction
    · intro hex
      obtain ⟨v, rfl, hv⟩ := hex
      rw [dif_pos v.isLt]
      exact (hsound.summit_iff v).mpr hv
  · have hnodup : t.summits.Nodup := (List.nodup_finRange g.size).filter _
    rw [← List.toFinset_card_of_nodup hnodup]
    congr 1
    ext v
    rw [List.mem_toFinset, mem_summits, hsound.summit_iff, Finset.mem_filter]
    simp

theorem isSummit_iff_of_reachable_stairs :
    let e : Edge Grid.stairs := ⟨⟨0, by decide⟩, ⟨2, by decide⟩, by decide⟩
    let t := ((build Grid.stairs).insert e).1
    t.Reachable ∧ t.isSummit 0 = true :=
  ⟨.insert .build _, ((isSummit_iff_of_reachable (g := Grid.stairs) (.insert .build _)).1 0).mpr
    ⟨⟨0, by decide⟩, by decide⟩⟩

end Terrain

end Downhill
