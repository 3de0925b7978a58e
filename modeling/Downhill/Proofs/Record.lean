import Downhill.Proofs.Report

/-!
# The record of a run

A call is accepted if it names two cells of the grid, the first strictly higher than the second. Any other call is
refused and changes nothing. The accepted calls of a run in their order are its record, and after a run from the terrain
without edges the lists hold the record and nothing else: the list of a cell's edges down has the lower cells of the
calls that name the cell first, the list of its edges up the upper cells of those that name it second, each in the order
of the record and as often as it stands there.

* `map_call_named`         : the edges that calls name are the record of the calls;
* `map_isSome_insertEach`  : which calls of a run are accepted;
* `record_of_run`          : the lists after a run.
-/

namespace Downhill

variable {g : Grid}

/-! ### Accepted calls -/

/-- The call names two cells, the first strictly higher than the second. -/
def Grid.Accepts (g : Grid) (call : Nat × Nat) : Prop :=
  ∃ u l : g.Node, u.val = call.1 ∧ l.val = call.2 ∧ g.elevation l < g.elevation u

instance : DecidablePred g.Accepts := fun call =>
  inferInstanceAs (Decidable (∃ u l : g.Node, u.val = call.1 ∧ l.val = call.2 ∧ g.elevation l < g.elevation u))

private theorem Grid.not_accepts_iff {call : Nat × Nat} :
    ¬g.Accepts call ↔ ∀ u l : g.Node, u.val = call.1 → l.val = call.2 → g.elevation u ≤ g.elevation l := by
  simp only [Grid.Accepts, not_exists, not_and, Int.not_lt]

namespace Edge

/-- The call that records an edge. -/
def call (e : Edge g) : Nat × Nat :=
  (e.upper.val, e.lower.val)

private theorem accepts_call (e : Edge g) : g.Accepts e.call :=
  ⟨e.upper, e.lower, rfl, rfl, e.descends⟩

private theorem call_of_ofNat? {call : Nat × Nat} {e : Edge g} (h : ofNat? g call.1 call.2 = some e) :
    e.call = call := by
  obtain ⟨hu, hl⟩ := ofNat?_eq_some_iff.mp h
  exact Prod.ext hu hl

private theorem isSome_ofNat?_iff (g : Grid) (call : Nat × Nat) : (ofNat? g call.1 call.2).isSome ↔ g.Accepts call := by
  rcases he : ofNat? g call.1 call.2 with _ | e
  · simp only [Option.isSome_none, Bool.false_eq_true, false_iff, Grid.not_accepts_iff]
    exact ofNat?_eq_none_iff.mp he
  · rw [← call_of_ofNat? he]
    exact iff_of_true rfl e.accepts_call

end Edge

namespace Terrain

theorem map_call_named (g : Grid) (calls : List (Nat × Nat)) :
    (named g calls).map Edge.call = calls.filter fun call => g.Accepts call := by
  induction calls with
  | nil => rfl
  | cons call calls ih =>
    rw [named_cons, List.map_append, ih, List.filter_cons]
    have haccepts := Edge.isSome_ofNat?_iff g call
    rcases he : Edge.ofNat? g call.1 call.2 with _ | e
    · rw [he] at haccepts
      rw [if_neg (by simpa using haccepts)]
      rfl
    · rw [he] at haccepts
      rw [if_pos (by simpa using haccepts)]
      exact congrArg (· :: _) (Edge.call_of_ofNat? he)

theorem map_isSome_insertEach (t : Terrain g) (calls : List (Nat × Nat)) :
    (t.insertEach calls).2.map Option.isSome = calls.map fun call => decide (g.Accepts call) := by
  induction calls generalizing t with
  | nil => rfl
  | cons call calls ih =>
    obtain ⟨upper, lower⟩ := call
    have haccepts := Edge.isSome_ofNat?_iff g (upper, lower)
    unfold insertEach insert?
    rcases he : Edge.ofNat? g upper lower with _ | e
    · rw [he] at haccepts
      rw [List.map_cons, decide_eq_false (by simpa using haccepts), ← ih t]
      rfl
    · rw [he] at haccepts
      rw [List.map_cons, decide_eq_true (by simpa using haccepts), ← ih (t.insert e).1]
      rfl

/-! ### The lists and the record -/

/-- Edges are picked by one of their cells, or their calls by the number of that cell. -/
private theorem map_val_filter {near far : Edge g → g.Node} {first second : Nat × Nat → Nat}
    (hnear : ∀ e, first e.call = (near e).val) (hfar : ∀ e, second e.call = (far e).val) (edges : List (Edge g))
    (v : g.Node) :
    ((edges.filter (near · = v)).map far).map Fin.val =
      ((edges.map Edge.call).filter (first · = v.val)).map second := by
  rw [List.filter_map, List.map_map, List.map_map]
  have hpick : ∀ e : Edge g, decide (near e = v) = decide (first e.call = v.val) := by
    intro e
    rw [hnear, decide_eq_decide, Fin.ext_iff]
  rw [List.filter_congr fun e _ => hpick e]
  exact List.map_congr_left fun e _ => (hfar e).symm

private theorem map_down_insertEach_bare (calls : List (Nat × Nat)) (u : g.Node) :
    (((bare g).insertEach calls).1.down.get u).map Fin.val =
      ((calls.filter fun call => g.Accepts call).filter (·.1 = u.val)).map Prod.snd := by
  rw [insertEach_fst, down_insertAll, down_bare, List.nil_append, ← map_call_named]
  exact map_val_filter (fun _ => rfl) (fun _ => rfl) _ u

private theorem map_up_insertEach_bare (calls : List (Nat × Nat)) (l : g.Node) :
    (((bare g).insertEach calls).1.up.get l).map Fin.val =
      ((calls.filter fun call => g.Accepts call).filter (·.2 = l.val)).map Prod.fst := by
  rw [insertEach_fst, up_insertAll, up_bare, List.nil_append, ← map_call_named]
  exact map_val_filter (fun _ => rfl) (fun _ => rfl) _ l

private theorem count_map_snd_filter (record : List (Nat × Nat)) (a b : Nat) :
    ((record.filter (·.1 = a)).map Prod.snd).count b = record.count (a, b) := by
  rw [List.count_eq_countP, List.countP_map, List.countP_filter, List.count_eq_countP]
  apply List.countP_congr
  rintro ⟨a', b'⟩ _
  simp [and_comm]

private theorem count_down_insertEach_bare (calls : List (Nat × Nat)) (u l : g.Node) :
    (((bare g).insertEach calls).1.down.get u).count l =
      (calls.filter fun call => g.Accepts call).count (u.val, l.val) := by
  rw [← count_map_snd_filter, ← map_down_insertEach_bare, List.count_map_of_injective _ _ Fin.val_injective]

private theorem edgeCount_insertEach_bare (calls : List (Nat × Nat)) :
    ((bare g).insertEach calls).1.edgeCount = (calls.filter fun call => g.Accepts call).length := by
  rw [insertEach_fst, edgeCount_insertAll, edgeCount_bare, Nat.zero_add, ← map_call_named, List.length_map]

/-! ### No way back -/

/-- A descent with an edge does not come back to its first cell. -/
private theorem Linked.not_walk_self {t : Terrain g} (h : t.Linked) {n : Nat} (hn : 0 < n) (v : g.Node) :
    ¬Walk t.Descends n v v := by
  intro hw
  have := h.add_card_below_le hw
  omega

/-- After a run of calls, what the terrain and the answers hold of the calls accepted. -/
structure Records (calls : List (Nat × Nat)) (run : Terrain g × List (Option (Insertion g))) : Prop where
  down_eq (u : g.Node) : (run.1.down.get u).map Fin.val =
    ((calls.filter fun call => g.Accepts call).filter (·.1 = u.val)).map Prod.snd
  up_eq (l : g.Node) : (run.1.up.get l).map Fin.val =
    ((calls.filter fun call => g.Accepts call).filter (·.2 = l.val)).map Prod.fst
  count_down (u l : g.Node) :
    (run.1.down.get u).count l = (calls.filter fun call => g.Accepts call).count (u.val, l.val)
  count_up (u l : g.Node) :
    (run.1.up.get l).count u = (calls.filter fun call => g.Accepts call).count (u.val, l.val)
  edgeCount_eq : run.1.edgeCount = (calls.filter fun call => g.Accepts call).length
  elevation_lt (u : g.Node) : ∀ l ∈ run.1.down.get u, g.elevation l < g.elevation u
  not_walk_self (n : Nat) (v : g.Node) : 0 < n → ¬Walk run.1.Descends n v v
  answers_eq : run.2.map Option.isSome = calls.map fun call => decide (g.Accepts call)
  /-- A refused call leaves the terrain as it is. -/
  refused (call : Nat × Nat) : ¬g.Accepts call → run.1.insertEach [call] = (run.1, [none])
  /-- Reports are those of the grid, which is in the type of the terrain. -/
  report_eq (alternatives : Nat) (withLevels : Bool) : let report := run.1.report alternatives withLevels
    report.width = g.width ∧ report.height = g.height ∧ report.nodes = g.size ∧
      ∀ peak ∈ report.peaks, ∃ v : g.Node, peak.cell = .ofNode g v

/-- Any run of calls from the terrain without edges records the accepted ones, in their order and as often as they
come. -/
theorem record_of_run (g : Grid) (calls : List (Nat × Nat)) : Records calls ((bare g).insertEach calls) := by
  have hlinked : ((bare g).insertEach calls).1.Linked := (Reachable.bare.insertEach calls).sound.toLinked
  exact {
    down_eq := map_down_insertEach_bare calls
    up_eq := map_up_insertEach_bare calls
    count_down := count_down_insertEach_bare calls
    count_up := fun u l => (hlinked.count_eq u l).symm.trans (count_down_insertEach_bare calls u l)
    edgeCount_eq := edgeCount_insertEach_bare calls
    elevation_lt := fun _ _ => hlinked.elevation_lt
    not_walk_self := fun _ v hn => hlinked.not_walk_self hn v
    answers_eq := map_isSome_insertEach _ calls
    refused := fun _ hrefused => insertEach_of_refused _ (Grid.not_accepts_iff.mp hrefused)
    report_eq := by
      intro alternatives withLevels report
      refine ⟨rfl, rfl, rfl, ?_⟩
      intro peak hpeak
      rw [show report.peaks = _ from report_peaks _ alternatives withLevels] at hpeak
      obtain ⟨v, _, rfl⟩ := List.mem_map.mp hpeak
      exact ⟨v, rfl⟩ }

/-- Of five calls two are accepted, the same one twice. -/
example : ((bare Grid.stairs).insertEach [(0, 2), (2, 0), (0, 2), (7, 1), (1, 1)]).2.map Option.isSome =
    [true, false, true, false, false] := by decide

end Terrain

end Downhill
