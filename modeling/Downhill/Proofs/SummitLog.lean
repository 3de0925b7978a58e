import Downhill.Proofs.Sound

/-!
# The log of summit changes

Each recorded edge answers with the changes that it made to the set of summits. These answers are a log of the set: an
observer who starts with no cells and carries out each change as it is reported holds the summits at all times, never
adds a cell that is there and never removes one that is not.

A cell that entered has an edge down from then on, and a cell that left has one up (`Logged`). A cell enters only with
its first edge down and leaves only with its first edge up, so it does either once at most, and never comes back.

* `isDifference_insert`, `Logged.insert` : what one edge adds to the log;
* `logged_insertEach`                    : the log of a run of calls;
* `summitLog_run`                        : the log along a run.
-/

namespace Downhill

variable {g : Grid}

namespace SummitChange

/-- Carries changes out one after another on a set of cells. There is no result if a cell enters that is in the set, or
one leaves that is not. -/
def replay (cells : Finset g.Node) : List (SummitChange g) → Option (Finset g.Node)
  | [] => some cells
  | entered v :: rest => if v ∈ cells then none else replay (insert v cells) rest
  | left v :: rest => if v ∈ cells then replay (cells.erase v) rest else none

private theorem replay_append (cells : Finset g.Node) (log log' : List (SummitChange g)) :
    replay cells (log ++ log') = (replay cells log).bind fun cells => replay cells log' := by
  induction log generalizing cells with
  | nil => rfl
  | cons change log ih =>
    cases change with
    | entered v =>
      rw [List.cons_append, replay, replay]
      split
      · rfl
      · exact ih _
    | left v =>
      rw [List.cons_append, replay, replay]
      split
      · exact ih _
      · rfl

end SummitChange

/-- The changes that an edge reports are the difference between two sets of summits: the lower cell may leave, then the
upper cell may enter, and no other cell is in one set alone. -/
structure IsDifference (e : Edge g) (before after : Finset g.Node) (changes : List (SummitChange g)) : Prop where
  changes_eq : changes =
    (if e.lower ∈ before \ after then [.left e.lower] else []) ++
      (if e.upper ∈ after \ before then [.entered e.upper] else [])
  leaving_subset : before \ after ⊆ {e.lower}
  entering_subset : after \ before ⊆ {e.upper}

namespace IsDifference

variable {e : Edge g} {before after : Finset g.Node} {changes : List (SummitChange g)}

private theorem entered_mem_iff (h : IsDifference e before after changes) {v : g.Node} :
    .entered v ∈ changes ↔ v ∈ after \ before := by
  have hupper : v ∈ after \ before → v = e.upper := fun hv => Finset.mem_singleton.mp (h.entering_subset hv)
  rw [h.changes_eq, List.mem_append, or_iff_right (by split <;> simp)]
  split
  · next henter =>
    rw [List.mem_singleton, SummitChange.entered.injEq]
    exact ⟨fun hv => hv ▸ henter, hupper⟩
  · next henter => exact ⟨fun hv => absurd hv List.not_mem_nil, fun hv => absurd (hupper hv ▸ hv) henter⟩

private theorem left_mem_iff (h : IsDifference e before after changes) {v : g.Node} :
    .left v ∈ changes ↔ v ∈ before \ after := by
  have hlower : v ∈ before \ after → v = e.lower := fun hv => Finset.mem_singleton.mp (h.leaving_subset hv)
  rw [h.changes_eq, List.mem_append, or_iff_left (by split <;> simp)]
  split
  · next hleave =>
    rw [List.mem_singleton, SummitChange.left.injEq]
    exact ⟨fun hv => hv ▸ hleave, hlower⟩
  · next hleave => exact ⟨fun hv => absurd hv List.not_mem_nil, fun hv => absurd (hlower hv ▸ hv) hleave⟩

private theorem nodup (h : IsDifference e before after changes) : changes.Nodup := by
  rw [h.changes_eq]
  split <;> split <;> simp

/-- To carry the changes out on the first set gives the second. -/
private theorem replay_eq (h : IsDifference e before after changes) :
    SummitChange.replay before changes = some after := by
  -- between the two changes the set holds the summits that are in both sets
  have hleave : SummitChange.replay before (if e.lower ∈ before \ after then [.left e.lower] else []) =
      some (before ∩ after) := by
    rw [← Finset.sdiff_sdiff_self_left]
    split
    · next hl =>
      have hleaving : before \ after = {e.lower} :=
        h.leaving_subset.antisymm (Finset.singleton_subset_iff.mpr hl)
      rw [SummitChange.replay, if_pos (Finset.mem_sdiff.mp hl).1, SummitChange.replay, hleaving,
        Finset.sdiff_singleton_eq_erase]
    · next hl =>
      have hleaving : before \ after = ∅ := (Finset.subset_singleton_iff.mp h.leaving_subset).resolve_right
        fun heq => hl (heq ▸ Finset.mem_singleton_self e.lower)
      rw [SummitChange.replay, hleaving, Finset.sdiff_empty]
  have henter : SummitChange.replay (before ∩ after) (if e.upper ∈ after \ before then [.entered e.upper] else []) =
      some after := by
    rw [Finset.inter_comm]
    split
    · next hu =>
      have hentering : after \ before = {e.upper} :=
        h.entering_subset.antisymm (Finset.singleton_subset_iff.mpr hu)
      have hnot : e.upper ∉ after ∩ before := fun hmem => (Finset.mem_sdiff.mp hu).2 (Finset.mem_inter.mp hmem).2
      rw [SummitChange.replay, if_neg hnot, SummitChange.replay, Finset.insert_eq, ← hentering,
        Finset.sdiff_union_inter]
    · next hu =>
      have hentering : after \ before = ∅ := (Finset.subset_singleton_iff.mp h.entering_subset).resolve_right
        fun heq => hu (heq ▸ Finset.mem_singleton_self e.upper)
      rw [SummitChange.replay, Finset.inter_eq_left.mpr (Finset.sdiff_eq_empty_iff_subset.mp hentering)]
  rw [h.changes_eq, SummitChange.replay_append, hleave, Option.bind_some, henter]

end IsDifference

namespace Terrain

/-- The changes that the answers of a run report, in order. A refused call reports none. -/
def summitLog (answers : List (Option (Insertion g))) : List (SummitChange g) :=
  answers.flatMap fun answer => (answer.map Insertion.changes).getD []

private theorem summitLog_append (answers answers' : List (Option (Insertion g))) :
    summitLog (answers ++ answers') = summitLog answers ++ summitLog answers' :=
  List.flatMap_append

private theorem summitLog_none : summitLog (g := g) [none] = [] := rfl

private theorem summitLog_some (insertion : Insertion g) : summitLog [some insertion] = insertion.changes :=
  List.append_nil _

/-! ### One edge -/

private theorem changes_insert (t : Terrain g) (e : Edge g) :
    (t.insert e).2.changes = summitChanges e (link e t).up t.summit := rfl

private theorem mem_toFinset_summits {t : Terrain g} {v : g.Node} : v ∈ t.summits.toFinset ↔ t.summit.get v = true := by
  rw [List.mem_toFinset, mem_summits]

private theorem summit_insert_lower (t : Terrain g) (e : Edge g) : (t.insert e).1.summit.get e.lower = false := by
  rw [show (t.insert e).1.summit.get e.lower = _ from get_foldl_summitChanges e (link e t).up t.summit e.lower]
  exact if_pos rfl

private theorem summit_insert_upper (t : Terrain g) (e : Edge g) :
    (t.insert e).1.summit.get e.upper = (t.summit.get e.upper || (t.up.get e.upper).isEmpty) := by
  have hne := e.upper_ne_lower
  rw [show (t.insert e).1.summit.get e.upper = _ from get_foldl_summitChanges e (link e t).up t.summit e.upper,
    if_neg hne, if_pos rfl, up_link, if_neg hne]

private theorem summit_insert_of_ne (t : Terrain g) {e : Edge g} {v : g.Node} (hl : v ≠ e.lower) (hu : v ≠ e.upper) :
    (t.insert e).1.summit.get v = t.summit.get v := by
  rw [show (t.insert e).1.summit.get v = _ from get_foldl_summitChanges e (link e t).up t.summit v, if_neg hl,
    if_neg hu]

/-- The answer of an edge reports the difference that it makes to the set of summits. -/
theorem isDifference_insert (t : Terrain g) (e : Edge g) :
    IsDifference e t.summits.toFinset (t.insert e).1.summits.toFinset (t.insert e).2.changes where
  changes_eq := by
    rw [changes_insert, summitChanges, up_link, if_neg e.upper_ne_lower]
    simp only [Finset.mem_sdiff, mem_toFinset_summits, summit_insert_lower, summit_insert_upper]
    congr 1
    · simp
    · cases t.summit.get e.upper <;> simp
  leaving_subset := by
    intro v hv
    rw [Finset.mem_sdiff, mem_toFinset_summits, mem_toFinset_summits] at hv
    rw [Finset.mem_singleton]
    by_contra hl
    by_cases hu : v = e.upper
    · rw [hu, summit_insert_upper] at hv
      simp [hv.1] at hv
    · rw [summit_insert_of_ne t hl hu] at hv
      exact hv.2 hv.1
  entering_subset := by
    intro v hv
    rw [Finset.mem_sdiff, mem_toFinset_summits, mem_toFinset_summits] at hv
    rw [Finset.mem_singleton]
    by_contra hu
    by_cases hl : v = e.lower
    · rw [hl, summit_insert_lower] at hv
      exact Bool.false_ne_true hv.1
    · rw [summit_insert_of_ne t hl hu] at hv
      exact hv.2 hv.1

/-! ### A run -/

/-- What holds of a terrain and the log of the run to it: the log replays to the summits, it holds no change twice, and
what it says of a cell shows in the lists of edges. -/
structure Logged (t : Terrain g) (log : List (SummitChange g)) : Prop where
  replay_eq : SummitChange.replay ∅ log = some t.summits.toFinset
  nodup : log.Nodup
  down_ne_nil {v : g.Node} : .entered v ∈ log → t.down.get v ≠ []
  up_ne_nil {v : g.Node} : .left v ∈ log → t.up.get v ≠ []

private theorem logged_bare : (bare g).Logged [] where
  replay_eq := by simp [SummitChange.replay, summits]
  nodup := List.nodup_nil
  down_ne_nil h := by simp at h
  up_ne_nil h := by simp at h

private theorem down_insert_ne_nil {t : Terrain g} (e : Edge g) {v : g.Node} (h : t.down.get v ≠ []) :
    (t.insert e).1.down.get v ≠ [] := by
  rw [down_insert, down_link]
  split
  · exact List.append_ne_nil_of_left_ne_nil h _
  · exact h

private theorem up_insert_ne_nil {t : Terrain g} (e : Edge g) {v : g.Node} (h : t.up.get v ≠ []) :
    (t.insert e).1.up.get v ≠ [] := by
  rw [up_insert, up_link]
  split
  · exact List.append_ne_nil_of_left_ne_nil h _
  · exact h

private theorem Sound.mem_toFinset_summits_iff {t : Terrain g} (h : t.Sound) {v : g.Node} :
    v ∈ t.summits.toFinset ↔ t.up.get v = [] ∧ t.down.get v ≠ [] := by
  rw [mem_toFinset_summits, h.summit_iff]

/-- A cell that an edge makes a summit had no edges before, and one that it makes none had no edge up. -/
private theorem Logged.disjoint_changes {t : Terrain g} (hs : t.Sound) {log : List (SummitChange g)} (h : t.Logged log)
    (e : Edge g) : log.Disjoint (t.insert e).2.changes := by
  have hdiff := isDifference_insert t e
  intro change hlog hnew
  cases change with
  | entered v =>
    have hv := Finset.mem_sdiff.mp (hdiff.entered_mem_iff.mp hnew)
    rw [(hs.insert e).mem_toFinset_summits_iff, hs.mem_toFinset_summits_iff] at hv
    exact hv.2 ⟨by_contra fun hup => up_insert_ne_nil e hup hv.1.1, h.down_ne_nil hlog⟩
  | left v =>
    have hv := Finset.mem_sdiff.mp (hdiff.left_mem_iff.mp hnew)
    rw [hs.mem_toFinset_summits_iff] at hv
    exact h.up_ne_nil hlog hv.1.1

theorem Logged.insert {t : Terrain g} (hs : t.Sound) {log : List (SummitChange g)} (h : t.Logged log) (e : Edge g) :
    (t.insert e).1.Logged (log ++ (t.insert e).2.changes) := by
  have hdiff := isDifference_insert t e
  refine ⟨?_, ?_, ?_, ?_⟩
  · rw [SummitChange.replay_append, h.replay_eq, Option.bind_some, hdiff.replay_eq]
  · exact List.nodup_append'.mpr ⟨h.nodup, hdiff.nodup, h.disjoint_changes hs e⟩
  · intro v hmem
    rcases List.mem_append.mp hmem with hlog | hnew
    · exact down_insert_ne_nil e (h.down_ne_nil hlog)
    · have hv := Finset.mem_sdiff.mp (hdiff.entered_mem_iff.mp hnew)
      exact ((hs.insert e).mem_toFinset_summits_iff.mp hv.1).2
  · intro v hmem
    rcases List.mem_append.mp hmem with hlog | hnew
    · exact up_insert_ne_nil e (h.up_ne_nil hlog)
    · -- the cell was a summit, so it has an edge down, and is none any more, so it has an edge up
      have hv := Finset.mem_sdiff.mp (hdiff.left_mem_iff.mp hnew)
      rw [hs.mem_toFinset_summits_iff, (hs.insert e).mem_toFinset_summits_iff] at hv
      exact fun hup => hv.2 ⟨hup, down_insert_ne_nil e hv.1.2⟩

private theorem insertEach_append (t : Terrain g) (calls calls' : List (Nat × Nat)) :
    t.insertEach (calls ++ calls') =
      (((t.insertEach calls).1.insertEach calls').1,
        (t.insertEach calls).2 ++ ((t.insertEach calls).1.insertEach calls').2) := by
  induction calls generalizing t with
  | nil => rfl
  | cons call calls ih =>
    obtain ⟨upper, lower⟩ := call
    rw [List.cons_append, insertEach, insertEach]
    split
    · simp only [ih, List.cons_append]
    · simp only [ih, List.cons_append]

private theorem insertEach_singleton (t : Terrain g) (call : Nat × Nat) :
    t.insertEach [call] =
      match Edge.ofNat? g call.1 call.2 with
      | some e => ((t.insert e).1, [some (t.insert e).2])
      | none => (t, [none]) := by
  obtain ⟨upper, lower⟩ := call
  rw [insertEach, insert?]
  rcases Edge.ofNat? g upper lower with _ | e <;> rfl

theorem logged_insertEach (calls : List (Nat × Nat)) :
    ((bare g).insertEach calls).1.Logged (summitLog ((bare g).insertEach calls).2) := by
  induction calls using List.reverseRecOn with
  | nil => exact logged_bare
  | append_singleton calls call ih =>
    have hsound : ((bare g).insertEach calls).1.Sound := (Reachable.bare.insertEach calls).sound
    rw [insertEach_append, insertEach_singleton, summitLog_append]
    rcases Edge.ofNat? g call.1 call.2 with _ | e
    · rw [summitLog_none, List.append_nil]
      exact ih
    · rw [summitLog_some]
      exact ih.insert hsound e

private theorem summitLog_mono (t : Terrain g) (calls : List (Nat × Nat)) {k j : Nat} (hkj : k ≤ j)
    {change : SummitChange g} (h : change ∈ summitLog (t.insertEach (calls.take k)).2) :
    change ∈ summitLog (t.insertEach (calls.take j)).2 := by
  obtain ⟨rest, hrest⟩ := List.take_prefix_take_left hkj (l := calls)
  rw [← hrest, insertEach_append, summitLog_append]
  exact List.mem_append_left _ h

/-- Along a run of calls the answers are a log of the set of summits, which can be replayed up to any call. Each cell
enters once at most, and one that has left does not come back. -/
theorem summitLog_run (g : Grid) (calls : List (Nat × Nat)) :
    let run (k : Nat) := (bare g).insertEach (calls.take k)
    (∀ k call e, calls[k]? = some call → Edge.ofNat? g call.1 call.2 = some e →
      ∃ insertion, (run (k + 1)).2 = (run k).2 ++ [some insertion] ∧
        IsDifference e (run k).1.summits.toFinset (run (k + 1)).1.summits.toFinset insertion.changes) ∧
      (∀ k, SummitChange.replay ∅ (summitLog (run k).2) = some (run k).1.summits.toFinset) ∧
      (∀ k v, (summitLog (run k).2).count (.entered v) ≤ 1 ∧ (summitLog (run k).2).count (.left v) ≤ 1) ∧
      ∀ k j v, k ≤ j → .left v ∈ summitLog (run k).2 → v ∉ (run j).1.summits := by
  intro run
  refine ⟨?_, fun k => (logged_insertEach _).replay_eq, ?_, ?_⟩
  · intro k call e hcall he
    have hnext : run (k + 1) =
        (((run k).1.insert e).1, (run k).2 ++ [some ((run k).1.insert e).2]) := by
      show (bare g).insertEach (calls.take (k + 1)) = _
      rw [List.take_add_one, hcall, Option.toList_some, insertEach_append, insertEach_singleton, he]
    rw [hnext]
    exact ⟨_, rfl, isDifference_insert _ e⟩
  · intro k v
    have hnodup := (logged_insertEach (g := g) (calls.take k)).nodup
    exact ⟨List.nodup_iff_count_le_one.mp hnodup _, List.nodup_iff_count_le_one.mp hnodup _⟩
  · intro k j v hkj hleft hsummit
    have hsound : (run j).1.Sound := (Reachable.bare.insertEach _).sound
    have hup := (logged_insertEach (calls.take j)).up_ne_nil (summitLog_mono (bare g) calls hkj hleft)
    exact hup ((hsound.summit_iff v).mp (mem_summits.mp hsummit)).1

/-- The middle cell is a summit until the upper one is linked to it; to link them again changes nothing. -/
example :
    summitLog ((bare Grid.stairs).insertEach [(1, 2), (0, 1), (1, 0), (0, 1)]).2 =
      [.entered ⟨1, by decide⟩, .left ⟨1, by decide⟩, .entered ⟨0, by decide⟩] := by
  decide

end Terrain

end Downhill
