import Downhill.Proofs.CheckedInsert
import Downhill.Proofs.Scan
import Downhill.Proofs.Verdict

/-!
# The terrain of a grid with every check

A scan computes the number of each cell from its column and row and goes through the cells in the order of their
numbers (`places_eq`), so what it records are the edges of the grid one after another. The terrain that it ends with
is sound, so the check that follows passes, and its recount is within bounds: the lengths that it has found are at
most the number of different elevations below a cell. What can go wrong is only that one edge brings about more raises
than a word counts.

* `Peel.Partway.longest_le`   : the bound on a recount under way;
* `Checked.validate_eq_some`  : a check of linked lists ends;
* `Checked.insertAll_eq`      : a run of edges, with the checks and without;
* `Checked.build_eq`          : the scan, the check and the number of edges.
-/

namespace Downhill

variable {g : Grid}

/-! ### Counts of edges -/

theorem Grid.length_edges_le (g : Grid) : g.edges.length ≤ 2 * g.size := by
  have hback : ∀ v : g.Node, (g.edgesBack v).length ≤ 2 := by
    intro v
    rw [edgesBack, List.length_append]
    exact Nat.add_le_add Option.length_toList_le Option.length_toList_le
  rw [edges, List.length_flatMap]
  have hsum := List.sum_le_card_nsmul (g.nodes.map fun v => (g.edgesBack v).length) 2 (by
    intro n hn
    obtain ⟨v, _, rfl⟩ := List.mem_map.mp hn
    exact hback v)
  rw [List.length_map, nodes, List.length_finRange, smul_eq_mul] at hsum
  rw [nodes]
  omega

/-- All lengths that a recount has found are bounded by the elevations of the grid. -/
theorem Peel.Partway.longest_le {t : Terrain g} (hl : t.Linked) {p : Peel g} (h : Partway t p) (v : g.Node) :
    p.longest.get v ≤ (g.below v).card := by
  -- a length is due to a lower cell, so the induction goes up from the lowest one
  induction hn : (g.below v).card using Nat.strongRecOn generalizing v with
  | ind n ih =>
    by_cases hzero : p.longest.get v = 0
    · omega
    · obtain ⟨u, _, hd, hle⟩ := h.exists_done hzero
      have hlt := Grid.card_below_lt (hl.elevation_lt hd)
      have := ih _ (by omega) u rfl
      omega

/-- What recording each of some edges did beside adding it, if they are recorded one after another. -/
def Terrain.insertions (t : Terrain g) : List (Edge g) → List (Insertion g)
  | [] => []
  | e :: edges => (t.insert e).2 :: insertions (t.insert e).1 edges

theorem Terrain.insertions_append (t : Terrain g) (edges edges' : List (Edge g)) :
    t.insertions (edges ++ edges') = t.insertions edges ++ (t.insertAll edges).insertions edges' := by
  induction edges generalizing t with
  | nil => rfl
  | cons e edges ih => rw [List.cons_append, insertions, ih, insertions, List.cons_append, insertAll_cons]

namespace Checked

open Terrain

theorem edgeCount_eq_some {t : Terrain g} (h : t.edgeCount < UInt64.size) : edgeCount t = some t.edgeCount := by
  rw [Terrain.edgeCount, List.length_flatMap] at *
  exact sum_eq_some h

/-! ### Checks -/

private theorem close_eq {below : Nat} (h : below + 1 < UInt64.size) : close (g := g) below = Peel.close below := by
  funext p v
  rw [close, add_eq_some h, Option.bind_some]

/-- A recount of linked lists passes every check, and comes to the end of its queue. -/
private theorem peel_eq_run {t : Terrain g} (hl : t.Linked) (bound : Nat) {p : Peel g} (h : p.Partway t)
    (hbound : g.size ≤ p.peeled + bound) : peel t.up bound p = p.run t.up bound := by
  induction bound generalizing p with
  | zero =>
    have hsize := h.size_order_le
    rw [peel, if_neg (by omega), Peel.run]
  | succ bound ih =>
    rw [peel, Peel.run]
    rcases hv : p.order[p.peeled]? with _ | v
    · rfl
    · have hle := h.longest_le hl v
      have hcard := Grid.card_below_lt_size v
      have hword := g.size_lt
      obtain ⟨q, hq, hpart, hpeeled⟩ := h.step hl hv
      have hclose : close (g := g) (p.longest.get v) = Peel.close (p.longest.get v) := close_eq (by omega)
      simp only [hclose]
      show (p.step t.up v).bind _ = (p.step t.up v).bind _
      rw [hq]
      exact ih hpart (by omega)

theorem validate_eq_some {t : Terrain g} (hl : t.Linked) : validate t = some t.validate := by
  obtain ⟨p, hp, _⟩ := hl.exists_run_peel
  have hpeel : peel t.up g.size t.peel = some p := by
    rw [peel_eq_run hl g.size (Peel.partway_peel t) (Nat.le_add_left _ _), hp]
  rw [validate, Terrain.validate, recount, hp, hpeel]
  rcases t.unpaired? with _ | violation
  · simp only [Option.map_some, Option.bind_eq_bind, Option.bind_some]
    rcases (t.mislaid? p.longest).or t.misjudged? with _ | violation <;> rfl
  · rfl

/-! ### Scans -/

/-- Records edges one after another. -/
def insertAll (t : Terrain g) (edges : List (Edge g)) : Option (Terrain g) :=
  edges.foldlM (fun t e => (insert t e.upper e.lower).map Prod.fst) t

private theorem bare_eq_some (g : Grid) : bare g = some (Terrain.bare g) := by
  have hrow : ∀ row ∈ g.rows, row.length = g.width := by
    intro row hrow
    obtain ⟨y, rfl⟩ := List.mem_ofFn.mp hrow
    exact List.length_ofFn
  have hrows : g.rows.length = g.height := List.length_ofFn
  have hcells : g.rows.flatten.length = g.size := by
    rw [List.length_flatten, List.map_congr_left hrow, List.map_const', List.sum_replicate_nat, hrows, Nat.mul_comm]
  rw [bare, if_pos ⟨Nat.ne_of_gt g.width_pos, hcells⟩]

/-- Row after row the cells come in the order of their numbers. -/
private theorem places_eq_map_range {width : Nat} (h : 0 < width) (height : Nat) :
    places width height = (List.range (height * width)).map fun i => (i % width, i / width) := by
  rw [places]
  induction height with
  | zero => simp
  | succ height ih =>
    rw [List.range_succ, List.flatMap_append, ih, Nat.succ_mul, List.range_add, List.map_append, List.map_map,
      List.flatMap_singleton]
    congr 1
    apply List.map_congr_left
    intro x hx
    have hlt := List.mem_range.mp hx
    have hmod : (height * width + x) % width = x := by rw [Nat.mul_add_mod', Nat.mod_eq_of_lt hlt]
    have hdiv : (height * width + x) / width = height := by
      rw [Nat.mul_comm, Nat.mul_add_div h, Nat.div_eq_of_lt hlt, Nat.add_zero]
    rw [Function.comp_apply, hmod, hdiv]

theorem places_eq (g : Grid) : places g.width g.height = g.nodes.map fun v => ((g.x v).val, (g.y v).val) := by
  have hnodes : g.nodes.map Fin.val = List.range (g.height * g.width) := by
    rw [Grid.nodes, List.map_coe_finRange_eq_range, Nat.mul_comm]
  rw [places_eq_map_range g.width_pos, ← hnodes, List.map_map]
  rfl

theorem insertAll_cons (t : Terrain g) (e : Edge g) (edges : List (Edge g)) :
    insertAll t (e :: edges) = (insert t e.upper e.lower).bind fun next => insertAll next.1 edges := by
  rw [insertAll, List.foldlM_cons, Option.bind_eq_bind, Option.bind_map]
  rfl

private theorem insertAll_append (t : Terrain g) (edges edges' : List (Edge g)) :
    insertAll t (edges ++ edges') = (insertAll t edges).bind fun next => insertAll next edges' :=
  List.foldlM_append

private theorem connect_eq (t : Terrain g) (a b : g.Node) :
    connect t a b = insertAll t (Edge.between? a b).toList := by
  rw [connect, Grid.nodeOfNat?_val, Grid.nodeOfNat?_val, Option.bind_eq_bind, Option.bind_some, Option.bind_some]
  by_cases hab : g.elevation b < g.elevation a
  · have he : Edge.between? a b = some ⟨a, b, hab⟩ := Grid.between?_eq_some_iff.mpr (.inl ⟨rfl, rfl⟩)
    rw [if_pos hab, he, insertAll, Option.toList_some, List.foldlM_cons, Option.bind_eq_bind]
    exact (Option.bind_fun_some _).symm
  · rw [if_neg hab]
    by_cases hba : g.elevation a < g.elevation b
    · have he : Edge.between? a b = some ⟨b, a, hba⟩ := Grid.between?_eq_some_iff.mpr (.inr ⟨rfl, rfl⟩)
      rw [if_pos hba, he, insertAll, Option.toList_some, List.foldlM_cons, Option.bind_eq_bind]
      exact (Option.bind_fun_some _).symm
    · have he : Edge.between? a b = none := by
        rw [Edge.between?, Edge.ofNodes?, Edge.ofNodes?, dif_neg hab, dif_neg hba, Option.none_or]
      rw [if_neg hba, he]
      rfl

/-- Looking back to the left and looking back up differ in the distance alone. -/
private theorem connectBack_eq (t : Terrain g) {v : g.Node} {coordinate distance : Nat} {back : Option g.Node}
    (hsome : 0 < coordinate → ∃ u, back = some u ∧ distance ≤ v ∧ u.val = v - distance)
    (hnone : coordinate = 0 → back = none) :
    connectBack v coordinate distance t = insertAll t (back.bind (Edge.between? v)).toList := by
  rw [connectBack]
  by_cases hpos : 0 < coordinate
  · obtain ⟨u, rfl, hle, hu⟩ := hsome hpos
    rw [if_pos hpos, sub_eq_some hle, ← hu]
    exact connect_eq t v u
  · rw [if_neg hpos, hnone (by omega)]
    rfl

/-- A scan records the edges that it finds at a cell. -/
private theorem visit_eq (t : Terrain g) (v : g.Node) : visit t (g.x v) (g.y v) = insertAll t (g.edgesBack v) := by
  have hword := g.size_lt
  have hv := v.isLt
  have hnumber : (g.y v).val * g.width + (g.x v).val = v := congrArg Fin.val (Grid.node_x_y v)
  have hmul : mul (g.y v) g.width = some ((g.y v).val * g.width) := mul_eq_some (by omega)
  have hadd : add ((g.y v).val * g.width) (g.x v) = some v.val := by rw [add_eq_some (by omega), hnumber]
  have hleft : connectBack v (g.x v) 1 t = insertAll t ((g.left? v).bind (Edge.between? v)).toList := by
    apply connectBack_eq
    · intro hx
      exact ⟨_, if_pos hx, by omega, rfl⟩
    · intro hx
      exact if_neg (by omega)
  have habove : ∀ t, connectBack v (g.y v) g.width t = insertAll t ((g.above? v).bind (Edge.between? v)).toList := by
    intro t
    apply connectBack_eq
    · intro hy
      have := Nat.le_mul_of_pos_left g.width hy
      exact ⟨_, if_pos hy, by omega, rfl⟩
    · intro hy
      exact if_neg (by omega)
  rw [visit, hmul, Option.bind_eq_bind, Option.bind_some, hadd, Option.bind_some, hleft, Grid.edgesBack,
    insertAll_append, funext habove]

private theorem foldlM_visit (t : Terrain g) (l : List g.Node) :
    l.foldlM (fun t v => visit t (g.x v) (g.y v)) t = insertAll t (l.flatMap g.edgesBack) := by
  induction l generalizing t with
  | nil => rfl
  | cons v l ih =>
    rw [List.foldlM_cons, visit_eq, List.flatMap_cons, insertAll_append, Option.bind_eq_bind]
    congr 1
    exact funext ih

/-! ### Runs -/

/-- A run comes to the same terrain as without the checks, unless one of its edges brings about more raises than a word
counts. -/
theorem insertAll_eq {t : Terrain g} (h : t.Sound) (edges : List (Edge g)) :
    insertAll t edges =
      if ∀ insertion ∈ t.insertions edges, insertion.raised < UInt64.size then some (t.insertAll edges) else none := by
  induction edges generalizing t with
  | nil => rfl
  | cons e edges ih =>
    rw [insertAll_cons, insert_eq h]
    simp only [insertions, List.forall_mem_cons]
    by_cases hword : (t.insert e).2.raised < UInt64.size
    · rw [if_pos hword, Option.bind_some, ih (h.insert e), Terrain.insertAll_cons]
      simp only [hword, true_and]
    · rw [if_neg hword, if_neg fun hall => hword hall.1, Option.bind_none]

/-- The terrain of a grid is built as without the checks, unless one of its edges brings about more raises than a word
counts. -/
theorem build_eq (hedges : g.edges.length < UInt64.size) :
    build g =
      if ∀ insertion ∈ (Terrain.bare g).insertions g.edges, insertion.raised < UInt64.size then some (Terrain.build g)
      else none := by
  have hscan : g.nodes.foldlM (fun t v => visit t (g.x v) (g.y v)) (Terrain.bare g) = _ :=
    (foldlM_visit _ g.nodes).trans (insertAll_eq sound_bare _)
  have hsound : (Terrain.build g).Sound := Reachable.build.sound
  have hverdict : validate (Terrain.build g) = some .sound := by
    rw [validate_eq_some hsound.toLinked, hsound.validate_eq]
  have hcount : edgeCount (Terrain.build g) = some (Terrain.build g).edgeCount := by
    apply edgeCount_eq_some
    rwa [edgeCount_build]
  rw [build, bare_eq_some, Option.bind_eq_bind, Option.bind_some, places_eq, List.foldlM_map]
  show ((g.nodes.foldlM (fun t v => visit t (g.x v) (g.y v)) (Terrain.bare g)).bind _) = _
  by_cases hword : ∀ insertion ∈ (Terrain.bare g).insertions g.edges, insertion.raised < UInt64.size
  · rw [hscan.trans (if_pos hword), if_pos hword]
    show ((validate (Terrain.build g)).bind _) = _
    rw [hverdict]
    show (edgeCount (Terrain.build g)).map _ = _
    rw [hcount]
    rfl
  · rw [hscan.trans (if_neg hword), if_neg hword]
    rfl

end Checked

end Downhill
