import Downhill.Proofs.Rows
import Mathlib.Algebra.GroupWithZero.Nat

/-!
# Why rows make no grid

Of the rows only the lengths matter for whether they make a grid. The first fault of this order counts: a width or
height of zero, too many cells, the first row of a wrong length among those that the height asks for, a wrong number of
rows (`RowFault`). A row past the last one asked for may have any length, but it is counted. The pass over the rows
finds the same fault.

* `misfit?_eq_some_iff`  : the first row of a wrong length;
* `ofRows_eq_error_iff`  : the fault of rows that make no grid;
* `gather_eq`            : what a pass comes to, from any row on;
* `ofRows_outcome`       : which rows make a grid, and what is wrong with the others.
-/

namespace Downhill

/-! ### The first element that misses -/

/-- The list starts with elements that satisfy `p`, and the next one is `a`, which does not. -/
structure FirstMiss {α : Type} (p : α → Prop) (l before : List α) (a : α) : Prop where
  split : ∃ after, l = before ++ a :: after
  forall_before : ∀ b ∈ before, p b
  not_at : ¬p a

theorem not_firstMiss_nil {α : Type} {p : α → Prop} {before : List α} {a : α} : ¬FirstMiss p [] before a := by
  rintro ⟨⟨after, h⟩, -, -⟩
  exact absurd h.symm (List.append_ne_nil_of_right_ne_nil before (List.cons_ne_nil a after))

theorem firstMiss_cons_iff {α : Type} {p : α → Prop} {b : α} {l before : List α} {a : α} :
    FirstMiss p (b :: l) before a ↔
      ¬p b ∧ before = [] ∧ a = b ∨ p b ∧ ∃ rest, before = b :: rest ∧ FirstMiss p l rest a := by
  constructor
  · rintro ⟨⟨after, hsplit⟩, hbefore, hmiss⟩
    rcases List.cons_eq_append_iff.mp hsplit with ⟨rfl, hcons⟩ | ⟨rest, rfl, hl⟩
    · obtain ⟨rfl, -⟩ := List.cons.inj hcons
      exact .inl ⟨hmiss, rfl, rfl⟩
    · obtain ⟨hb, hrest⟩ := List.forall_mem_cons.mp hbefore
      exact .inr ⟨hb, rest, rfl, ⟨after, hl⟩, hrest, hmiss⟩
  · rintro (⟨hmiss, rfl, rfl⟩ | ⟨hb, rest, rfl, ⟨after, rfl⟩, hrest, hmiss⟩)
    · exact ⟨⟨l, rfl⟩, by simp, hmiss⟩
    · exact ⟨⟨after, rfl⟩, List.forall_mem_cons.mpr ⟨hb, hrest⟩, hmiss⟩

namespace Grid

/-! ### Faults -/

/-- A grid can have this width and height. -/
structure IsSize (width height : Nat) : Prop where
  width_pos : 1 ≤ width
  height_pos : 1 ≤ height
  size_le : width * height ≤ 2 ^ 64 - 1

theorem isSize_iff {width height : Nat} :
    IsSize width height ↔ ¬(width = 0 ∨ height = 0) ∧ ¬UInt64.size ≤ width * height := by
  constructor
  · rintro ⟨hwidth, hheight, hsize⟩
    exact ⟨by omega, Nat.not_le.mpr (Nat.lt_of_le_sub_one (by decide) hsize)⟩
  · rintro ⟨hpos, hsize⟩
    exact ⟨by omega, by omega, Nat.le_sub_one_of_lt (Nat.not_le.mp hsize)⟩

/-- Why rows of the given lengths make no grid of the given width and height. -/
inductive RowFault (width height : Nat) (lengths : List Nat) : GridError → Prop
  | empty (hzero : width = 0 ∨ height = 0) : RowFault width height lengths (.empty width height)
  | tooLarge (hwidth : 1 ≤ width) (hheight : 1 ≤ height) (hsize : 2 ^ 64 - 1 < width * height) :
    RowFault width height lengths (.tooLarge width height)
  | rowLength {before : List Nat} {found : Nat} (hsize : IsSize width height)
      (hmiss : FirstMiss (· = width) (lengths.take height) before found) :
    RowFault width height lengths (.rowLength before.length width found)
  | rowCount (hsize : IsSize width height) (hlengths : ∀ length ∈ lengths.take height, length = width)
      (hcount : lengths.length ≠ height) : RowFault width height lengths (.rowCount height lengths.length)

variable {width height : Nat} {rows : List (List Int64)}

/-! ### The first row of a wrong length -/

private theorem misfit?_cons (width : Nat) (row : List Int64) (rows : List (List Int64)) :
    misfit? width (row :: rows) = if row.length = width then (misfit? width rows).map (Prod.map (· + 1) id)
      else some (0, row.length) := by
  unfold misfit?
  rw [List.zipIdx_cons, List.find?_cons, Nat.zero_add, List.zipIdx_succ, List.find?_map]
  by_cases h : row.length = width
  · rw [if_pos h, h, bne_self_eq_false, Option.map_map, Option.map_map]
    rfl
  · rw [if_neg h, bne_iff_ne.mpr h]
    rfl

theorem misfit?_eq_some_iff {y found : Nat} :
    misfit? width rows = some (y, found) ↔
      ∃ before, FirstMiss (· = width) (rows.map List.length) before found ∧ y = before.length := by
  induction rows generalizing y with
  | nil => simp [misfit?, not_firstMiss_nil]
  | cons row rows ih =>
    rw [misfit?_cons, List.map_cons]
    simp only [firstMiss_cons_iff]
    by_cases h : row.length = width
    · rw [if_pos h, Option.map_eq_some_iff]
      constructor
      · rintro ⟨⟨y', found'⟩, hmiss, heq⟩
        obtain ⟨rfl, rfl⟩ := Prod.mk.inj heq
        obtain ⟨before, hbefore, rfl⟩ := ih.mp hmiss
        exact ⟨row.length :: before, .inr ⟨h, before, rfl, hbefore⟩, rfl⟩
      · rintro ⟨before, ⟨hne, -⟩ | ⟨-, rest, rfl, hrest⟩, rfl⟩
        · exact absurd h hne
        · exact ⟨_, ih.mpr ⟨rest, hrest, rfl⟩, rfl⟩
    · rw [if_neg h]
      constructor
      · intro heq
        obtain ⟨rfl, rfl⟩ := Prod.mk.inj (Option.some.inj heq)
        exact ⟨[], .inl ⟨h, rfl, rfl⟩, rfl⟩
      · rintro ⟨before, ⟨-, rfl, rfl⟩ | ⟨heq, -⟩, rfl⟩
        · rfl
        · exact absurd heq h

private theorem misfit?_take_eq_none_iff :
    misfit? width (rows.take height) = none ↔ ∀ length ∈ (rows.map List.length).take height, length = width := by
  rw [misfit?_eq_none_iff, ← List.map_take, List.forall_mem_map]

/-! ### Rows without a grid -/

theorem ofRows_eq_error_iff {fault : GridError} :
    ofRows width height rows = .error fault ↔ RowFault width height (rows.map List.length) fault := by
  constructor
  · intro h
    unfold ofRows at h
    split at h
    · next hzero =>
      cases h
      exact .empty hzero
    · next hpos =>
      split at h
      · next hlarge =>
        cases h
        exact .tooLarge (by omega) (by omega) (Nat.lt_of_succ_le hlarge)
      · next hsize =>
        have hsize : IsSize width height := isSize_iff.mpr ⟨hpos, hsize⟩
        split at h
        · next hmiss =>
          cases h
          obtain ⟨before, hbefore, rfl⟩ := misfit?_eq_some_iff.mp hmiss
          rw [List.map_take] at hbefore
          exact .rowLength hsize hbefore
        · next hnone =>
          split at h
          · cases h
          · next hcount =>
            cases h
            have hfault := RowFault.rowCount hsize (misfit?_take_eq_none_iff.mp hnone) (by rwa [List.length_map])
            rwa [List.length_map] at hfault
  · intro h
    unfold ofRows
    cases h with
    | empty hzero => rw [dif_pos hzero]
    | tooLarge hwidth hheight hsize =>
      have hlarge : UInt64.size ≤ width * height := Nat.succ_le_of_lt hsize
      rw [dif_neg (by omega), dif_pos hlarge]
    | rowLength hsize hmiss =>
      rw [← List.map_take] at hmiss
      have hmisfit := misfit?_eq_some_iff.mpr ⟨_, hmiss, rfl⟩
      obtain ⟨hpos, hlarge⟩ := isSize_iff.mp hsize
      rw [dif_neg hpos, dif_neg hlarge]
      split
      · next heq =>
        obtain ⟨rfl, rfl⟩ := Prod.mk.inj (Option.some.inj (heq.symm.trans hmisfit))
        rfl
      · next heq => cases heq.symm.trans hmisfit
    | rowCount hsize hlengths hcount =>
      obtain ⟨hpos, hlarge⟩ := isSize_iff.mp hsize
      rw [List.length_map] at hcount ⊢
      rw [dif_neg hpos, dif_neg hlarge]
      split
      · next heq => cases heq.symm.trans (misfit?_take_eq_none_iff.mpr hlengths)
      · rw [dif_neg hcount]

/-! ### One pass over the rows -/

/-- Rows past the last one that the height asks for are counted, and nothing else is asked of them. -/
theorem gather_eq (width height found : Nat) (cells : List Int64) (rows : List (List Int64)) :
    gather width height found cells rows =
      match misfit? width (rows.take (height - found)) with
      | some (y, length) => .error (.rowLength (found + y) width length)
      | none =>
        if found + rows.length = height then .ok (cells ++ rows.flatten)
        else .error (.rowCount height (found + rows.length)) := by
  induction rows generalizing found cells with
  | nil => simp [gather, misfit?]
  | cons row rows ih =>
    rw [gather, List.length_cons, List.flatten_cons]
    by_cases hfound : found < height
    · rw [if_pos hfound, show height - found = height - (found + 1) + 1 by omega, List.take_succ_cons, misfit?_cons]
      by_cases hlength : row.length = width
      · rw [if_pos hlength, if_pos hlength, ih]
        rcases misfit? width (rows.take (height - (found + 1))) with _ | ⟨y, length⟩
        · simp [Nat.add_assoc, Nat.add_comm 1]
        · simp [Nat.add_assoc, Nat.add_comm 1]
      · rw [if_neg hlength, if_neg hlength]
        rfl
    · -- the rows asked for have all been taken
      have hnone : ∀ rows : List (List Int64), misfit? width (rows.take 0) = none := fun _ => rfl
      rw [if_neg hfound, ih, Nat.sub_eq_zero_of_le (show height ≤ found + 1 by omega),
        Nat.sub_eq_zero_of_le (Nat.not_lt.mp hfound), hnone, hnone]
      show ite _ _ _ = ite _ _ _
      rw [if_neg (by omega), if_neg (by omega), Nat.add_right_comm, Nat.add_assoc]

/-- A pass over the rows for a grid comes to its elevations or to the fault of the rows. -/
theorem gather_eq_map_ofRows (hsize : IsSize width height) (rows : List (List Int64)) :
    gather width height 0 [] rows = (ofRows width height rows).map fun g => g.cells.toList := by
  rw [gather_eq, Nat.sub_zero, Nat.zero_add]
  rcases hrows : ofRows width height rows with fault | g
  · rcases ofRows_eq_error_iff.mp hrows with hzero | ⟨-, -, hlarge⟩ | ⟨-, hmiss⟩ | ⟨-, hlengths, hcount⟩
    · have := hsize.width_pos
      have := hsize.height_pos
      omega
    · exact absurd hsize.size_le (Nat.not_le.mpr hlarge)
    · rw [← List.map_take] at hmiss
      rw [misfit?_eq_some_iff.mpr ⟨_, hmiss, rfl⟩]
      exact congrArg (fun y => Except.error (GridError.rowLength y _ _)) (Nat.zero_add _)
    · rw [List.length_map] at hcount ⊢
      rw [misfit?_take_eq_none_iff.mpr hlengths]
      exact if_neg hcount
  · obtain ⟨hcount, hlength, -, -, hcells⟩ := of_ofRows_eq_ok hrows
    rw [List.take_of_length_le (Nat.le_of_eq hcount), misfit?_eq_none_iff.mpr hlength]
    exact (if_pos hcount).trans (congrArg Except.ok hcells.symm)

/-- Rows make a grid exactly if it can have its size, there are as many rows as the height says, and each is as long as
the width says. The fault of other rows is reported, also by one pass over the rows. -/
theorem ofRows_outcome (width height : Nat) (rows : List (List Int64)) :
    ((∃ g, ofRows width height rows = .ok g) ↔
        IsSize width height ∧ rows.length = height ∧ ∀ row ∈ rows, row.length = width) ∧
      (∀ g, ofRows width height rows = .ok g → g.width = width ∧ g.height = height ∧ g.rows = rows) ∧
      (∀ fault, ofRows width height rows = .error fault ↔ RowFault width height (rows.map List.length) fault) ∧
      (IsSize width height →
        gather width height 0 [] rows = (ofRows width height rows).map fun g => g.cells.toList) := by
  refine ⟨?_, fun g => ofRows_eq_ok_iff.mp, fun fault => ofRows_eq_error_iff,
    fun hsize => gather_eq_map_ofRows hsize rows⟩
  rw [exists_ofRows_eq_ok_iff]
  constructor
  · rintro ⟨hwidth, hheight, hsize, hrows⟩
    exact ⟨⟨hwidth, hheight, Nat.le_sub_one_of_lt hsize⟩, hrows⟩
  · rintro ⟨hsize, hrows⟩
    exact ⟨hsize.width_pos, hsize.height_pos, Nat.lt_of_le_sub_one (by decide) hsize.size_le, hrows⟩

/-- A row of a wrong length is reported even if there are too many rows as well, but not if it is one too many. -/
example : ofRows 2 1 [[1], [2, 3]] = .error (.rowLength 0 2 1) ∧ ofRows 2 1 [[2, 3], [1]] = .error (.rowCount 1 2) :=
  ⟨rfl, rfl⟩

end Grid

end Downhill
