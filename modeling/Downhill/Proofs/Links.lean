import Downhill.Proofs.Walk
import Downhill.Terrain.Build
import Mathlib.Algebra.BigOperators.Fin

/-!
# The lists of edges

Edges are only ever added, so the lists of a terrain record the edges of a run: a cell's list holds, in the order of
the run, the other ends of the edges recorded at the cell. A run of calls adds the edges that the calls name, and a
call that names none leaves the terrain as it is.

* `down_insertAll`, `up_insertAll` : the lists after a run;
* `edgeCount_insertAll`            : each edge of a run counts once;
* `insertEach_fst`, `insertEach_of_refused` : runs of calls, and calls that name no edge.
-/

namespace Downhill

variable {g : Grid}

/-! ### Calls -/

namespace Edge

theorem ofNat?_eq_some_iff {upper lower : Nat} {e : Edge g} :
    ofNat? g upper lower = some e ↔ e.upper.val = upper ∧ e.lower.val = lower := by
  unfold ofNat? Grid.nodeOfNat?
  constructor
  · intro h
    simp only [Option.bind_eq_bind, Option.bind_eq_some_iff, Option.dite_none_right_eq_some, Option.some.injEq] at h
    obtain ⟨u, ⟨hu, rfl⟩, l, ⟨hl, rfl⟩, h⟩ := h
    obtain ⟨hu', hl'⟩ := ofNodes?_eq_some_iff.mp h
    exact ⟨congrArg Fin.val hu', congrArg Fin.val hl'⟩
  · rintro ⟨rfl, rfl⟩
    simp only [Fin.is_lt, dite_true, Option.bind_eq_bind, Option.bind_some]
    exact ofNodes?_eq_some_iff.mpr ⟨rfl, rfl⟩

/-- A call names no edge if there are no such cells or the first is not strictly higher than the second. -/
theorem ofNat?_eq_none_iff {upper lower : Nat} :
    ofNat? g upper lower = none ↔
      ∀ u l : g.Node, u.val = upper → l.val = lower → g.elevation u ≤ g.elevation l := by
  constructor
  · rintro h u l rfl rfl
    apply Int.not_lt.mp
    intro hlt
    have := ofNat?_eq_some_iff (e := ⟨u, l, hlt⟩).mpr ⟨rfl, rfl⟩
    rw [h] at this
    contradiction
  · intro h
    rcases he : ofNat? g upper lower with _ | e
    · rfl
    · obtain ⟨hu, hl⟩ := ofNat?_eq_some_iff.mp he
      have := h e.upper e.lower hu hl
      have := e.descends
      omega

end Edge

namespace Terrain

/-- The edges that calls name, in order. -/
def named (g : Grid) (calls : List (Nat × Nat)) : List (Edge g) :=
  calls.filterMap fun call => Edge.ofNat? g call.1 call.2

theorem named_cons (call : Nat × Nat) (calls : List (Nat × Nat)) :
    named g (call :: calls) = (Edge.ofNat? g call.1 call.2).toList ++ named g calls := by
  rw [named, List.filterMap_cons]
  rcases Edge.ofNat? g call.1 call.2 with _ | e <;> rfl

theorem mem_named {calls : List (Nat × Nat)} {e : Edge g} :
    e ∈ named g calls ↔ (e.upper.val, e.lower.val) ∈ calls := by
  rw [named, List.mem_filterMap]
  constructor
  · intro hcall
    obtain ⟨⟨upper, lower⟩, hmem, he⟩ := hcall
    obtain ⟨rfl, rfl⟩ := Edge.ofNat?_eq_some_iff.mp he
    exact hmem
  · intro hmem
    exact ⟨_, hmem, Edge.ofNat?_eq_some_iff.mpr ⟨rfl, rfl⟩⟩

/-- Calls that all name edges name as many. -/
theorem length_named {calls : List (Nat × Nat)} (h : ∀ call ∈ calls, (Edge.ofNat? g call.1 call.2).isSome) :
    (named g calls).length = calls.length := by
  induction calls with
  | nil => rfl
  | cons call calls ih =>
    obtain ⟨hcall, hcalls⟩ := List.forall_mem_cons.mp h
    obtain ⟨e, he⟩ := Option.isSome_iff_exists.mp hcall
    rw [named_cons, he, List.length_append, ih hcalls, List.length_cons, Nat.add_comm]
    rfl

/-- A run of calls records the edges that the calls name. -/
theorem insertEach_fst (t : Terrain g) (calls : List (Nat × Nat)) :
    (t.insertEach calls).1 = t.insertAll (named g calls) := by
  induction calls generalizing t with
  | nil => rfl
  | cons call calls ih =>
    obtain ⟨upper, lower⟩ := call
    rw [named_cons]
    unfold insertEach insert?
    rcases Edge.ofNat? g upper lower with _ | e
    · exact ih t
    · exact ih (t.insert e).1

theorem insertEach_of_refused (t : Terrain g) {upper lower : Nat}
    (h : ∀ u l : g.Node, u.val = upper → l.val = lower → g.elevation u ≤ g.elevation l) :
    t.insertEach [(upper, lower)] = (t, [none]) := by
  simp only [insertEach, insert?, Edge.ofNat?_eq_none_iff.mpr h, Option.map_none]

/-! ### The lists after a run -/

theorem insertAll_cons (t : Terrain g) (e : Edge g) (edges : List (Edge g)) :
    t.insertAll (e :: edges) = (t.insert e).1.insertAll edges := rfl

theorem down_insertAll (t : Terrain g) (edges : List (Edge g)) (v : g.Node) :
    (t.insertAll edges).down.get v = t.down.get v ++ (edges.filter (·.upper = v)).map Edge.lower := by
  induction edges generalizing t with
  | nil => simp [insertAll]
  | cons e edges ih =>
    rw [insertAll_cons, ih, down_insert, down_link]
    by_cases h : v = e.upper
    · simp [h]
    · simp [h, Ne.symm h]

theorem up_insertAll (t : Terrain g) (edges : List (Edge g)) (v : g.Node) :
    (t.insertAll edges).up.get v = t.up.get v ++ (edges.filter (·.lower = v)).map Edge.upper := by
  induction edges generalizing t with
  | nil => simp [insertAll]
  | cons e edges ih =>
    rw [insertAll_cons, ih, up_insert, up_link]
    by_cases h : v = e.lower
    · simp [h]
    · simp [h, Ne.symm h]

theorem mem_down_insertAll_bare {edges : List (Edge g)} {u v : g.Node} :
    u ∈ ((bare g).insertAll edges).down.get v ↔ ∃ e ∈ edges, e.upper = v ∧ e.lower = u := by
  simp [down_insertAll, and_assoc]

/-! ### The number of edges -/

private theorem edgeCount_eq_sum (t : Terrain g) : t.edgeCount = ∑ v, (t.down.get v).length := by
  rw [edgeCount, List.length_flatMap, Fin.sum_univ_def]
  rfl

theorem edgeCount_eq_zero_iff {t : Terrain g} : t.edgeCount = 0 ↔ ∀ v, t.down.get v = [] := by
  rw [edgeCount, List.length_eq_zero_iff, List.flatMap_eq_nil_iff]
  exact ⟨fun h v => h v (Grid.mem_nodes v), fun h v _ => h v⟩

private theorem edgeCount_insert (t : Terrain g) (e : Edge g) : (t.insert e).1.edgeCount = t.edgeCount + 1 := by
  have h : ∀ v, ((t.insert e).1.down.get v).length = (t.down.get v).length + if v = e.upper then 1 else 0 := by
    intro v
    rw [down_insert, down_link]
    split <;> simp
  simp only [edgeCount_eq_sum, h, Finset.sum_add_distrib, Finset.sum_ite_eq', Finset.mem_univ, if_true]

theorem edgeCount_insertAll (t : Terrain g) (edges : List (Edge g)) :
    (t.insertAll edges).edgeCount = t.edgeCount + edges.length := by
  induction edges generalizing t with
  | nil => rfl
  | cons e edges ih =>
    rw [insertAll_cons, ih, edgeCount_insert, List.length_cons]
    omega

theorem edgeCount_bare : (bare g).edgeCount = 0 := by
  simp [edgeCount_eq_sum]

theorem edgeCount_build (g : Grid) : (build g).edgeCount = g.edges.length := by
  rw [build, edgeCount_insertAll, edgeCount_bare, Nat.zero_add]

/-! ### Reachable terrains -/

/-- The terrains that runs pass through: a run starts without edges or with the terrain of the grid, and records
edges. -/
inductive Reachable : Terrain g → Prop
  | bare : Reachable (bare g)
  | build : Reachable (build g)
  | insert {t : Terrain g} (h : Reachable t) (e : Edge g) : Reachable (t.insert e).1

theorem Reachable.insertAll {t : Terrain g} (h : t.Reachable) (edges : List (Edge g)) :
    (t.insertAll edges).Reachable := by
  induction edges generalizing t with
  | nil => exact h
  | cons e edges ih => exact ih (h.insert e)

theorem Reachable.insertEach {t : Terrain g} (h : t.Reachable) (calls : List (Nat × Nat)) :
    (t.insertEach calls).1.Reachable := by
  rw [insertEach_fst]
  exact h.insertAll _

end Terrain

end Downhill
