import Downhill.Grid.Parse
import Mathlib.Data.List.Forall2
import Mathlib.Data.List.OfFn

/-!
# What is read as a grid

Rows make a grid exactly if they are the rows of one, so a grid is the same as its size and its rows. Lines are read as
a grid exactly if the first is read as its width and height, the next ones as its rows, and the others are blank.

* `flatten_rows`                                : the rows of a grid, joined, are its cells;
* `exists_ofRows_eq_ok_iff`, `ofRows_eq_ok_iff` : which rows make a grid, and which grid;
* `ofLines_eq_ok_iff`                           : the grid that lines are read as.
-/

namespace Downhill.Grid

open Text

theorem mapM_eq_ok_iff {α β ε : Type} {f : α → Except ε β} {l : List α} {r : List β} :
    l.mapM f = .ok r ↔ List.Forall₂ (fun a b => f a = .ok b) l r := by
  constructor
  · intro h
    induction l generalizing r with
    | nil =>
      obtain rfl : [] = r := Except.ok.inj h
      exact .nil
    | cons a l ih =>
      rw [List.mapM_cons] at h
      rcases ha : f a with _ | b
      · rw [ha] at h
        cases h
      · rcases hl : l.mapM f with _ | s
        · rw [ha, hl] at h
          cases h
        · rw [ha, hl] at h
          obtain rfl : b :: s = r := Except.ok.inj h
          exact .cons ha (ih hl)
  · intro h
    induction h with
    | nil => rfl
    | cons ha _ ih =>
      rw [List.mapM_cons, ha, ih]
      rfl

/-! ### Rows -/

variable {g : Grid} {width height : Nat} {rows : List (List Int64)}

theorem length_rows (g : Grid) : g.rows.length = g.height :=
  List.length_ofFn

theorem length_of_mem_rows {row : List Int64} (h : row ∈ g.rows) : row.length = g.width := by
  obtain ⟨y, rfl⟩ := List.mem_ofFn.mp h
  exact List.length_ofFn

theorem flatten_rows (g : Grid) : g.rows.flatten = g.cells.toList := by
  have hcells : g.cells = Vector.ofFn g.cells.get := Table.ext_get fun v => (Table.get_ofFn _ v).symm
  rw [hcells, Vector.toList_ofFn, List.ofFn_mul']
  show (List.ofFn fun y => List.ofFn fun x => g.cells.get (g.node x y)).flatten = _
  congr 3
  funext y
  congr 1
  funext x
  congr 1
  apply Fin.ext
  show y.val * g.width + x.val = g.width * y.val + x.val
  rw [Nat.mul_comm]

theorem length_flatten_rows (g : Grid) : g.rows.flatten.length = g.size := by
  rw [flatten_rows, Vector.length_toList]

theorem getElem?_rows (g : Grid) (x y : Nat) : (g.rows[y]?.bind fun row => row[x]?) = g.elevation? x y := by
  unfold rows elevation?
  rw [List.getElem?_ofFn]
  by_cases hy : y < g.height
  · rw [dif_pos hy, Option.bind_some, row, List.getElem?_ofFn]
    by_cases hx : x < g.width
    · rw [dif_pos hx, dif_pos ⟨hx, hy⟩]
    · rw [dif_neg hx, dif_neg fun h => hx h.1]
  · rw [dif_neg hy, Option.bind_none, dif_neg fun h => hy h.2]

/-- Two grids of one size with the same rows are equal. -/
private theorem ext_rows {g h : Grid} (hw : g.width = h.width) (hh : g.height = h.height) (hr : g.rows = h.rows) :
    g = h := by
  have hcells : g.cells.toList = h.cells.toList := by rw [← flatten_rows, ← flatten_rows, hr]
  obtain ⟨w, k, c, _, _, _⟩ := g
  obtain ⟨w', k', c', _, _, _⟩ := h
  simp only at hw hh
  subst hw hh
  congr
  exact Vector.toList_inj.mp hcells

/-- A grid that rows make has their number, their length and their elevations. -/
theorem of_ofRows_eq_ok (h : ofRows width height rows = .ok g) :
    rows.length = height ∧ (∀ row ∈ rows, row.length = width) ∧ g.width = width ∧ g.height = height ∧
      g.cells.toList = rows.flatten := by
  unfold ofRows at h
  split at h
  · cases h
  · split at h
    · cases h
    · split at h
      · cases h
      · next hm =>
        split at h
        · next hr =>
          rw [List.take_of_length_le (by omega), misfit?_eq_none_iff] at hm
          cases h
          exact ⟨hr, hm, rfl, rfl, rfl⟩
        · cases h

theorem exists_ofRows_eq_ok_iff :
    (∃ g, ofRows width height rows = .ok g) ↔ 0 < width ∧ 0 < height ∧ width * height < UInt64.size ∧
      rows.length = height ∧ ∀ row ∈ rows, row.length = width := by
  constructor
  · rintro ⟨g, h⟩
    obtain ⟨hr, hrow, rfl, rfl, -⟩ := of_ofRows_eq_ok h
    exact ⟨g.width_pos, g.height_pos, g.addressable, hr, hrow⟩
  · rintro ⟨hw, hh, ha, hr, hrow⟩
    unfold ofRows
    rw [dif_neg (by omega), dif_neg (by omega)]
    split
    · next hm =>
      rw [List.take_of_length_le (by omega), misfit?_eq_none_iff.mpr hrow] at hm
      cases hm
    · rw [dif_pos hr]
      exact ⟨_, rfl⟩

/-- Rows make the grid whose rows they are. -/
theorem ofRows_eq_ok_iff :
    ofRows width height rows = .ok g ↔ g.width = width ∧ g.height = height ∧ g.rows = rows := by
  have hok : ∀ {g}, ofRows width height rows = .ok g → g.width = width ∧ g.height = height ∧ g.rows = rows := by
    intro g h
    obtain ⟨hr, hrow, rfl, rfl, hcells⟩ := of_ofRows_eq_ok h
    refine ⟨rfl, rfl, List.eq_iff_flatten_eq.mpr ⟨(flatten_rows g).trans hcells, ?_⟩⟩
    rw [List.map_eq_replicate_iff.mpr fun row => length_of_mem_rows, List.map_eq_replicate_iff.mpr hrow, length_rows,
      hr]
  constructor
  · exact hok
  · rintro ⟨rfl, rfl, rfl⟩
    obtain ⟨h, hh⟩ := exists_ofRows_eq_ok_iff.mpr
      ⟨g.width_pos, g.height_pos, g.addressable, length_rows g, fun _ => length_of_mem_rows⟩
    obtain ⟨hw, hk, hrows⟩ := hok hh
    rw [hh, ext_rows hw hk hrows]

/-! ### Lines -/

/-- Lines are read as the grid that their first line gives the size of and the next ones the rows, if all others are
blank. -/
theorem ofLines_eq_ok_iff {lines : List (List Char)} :
    ofLines lines = .ok g ↔ ∃ header body, lines = header :: body ∧ readHeader header = .ok (g.width, g.height) ∧
      readRows (body.take g.height) = .ok g.rows ∧ ∀ line ∈ body.drop g.height, ∀ c ∈ line, isBlank c = true := by
  constructor
  · intro hok
    match lines, hok with
    | header :: body, hok =>
      rw [ofLines] at hok
      rcases hheader : readHeader header with _ | ⟨width, height⟩
      · rw [hheader] at hok
        cases hok
      · rcases hrows : readRows (body.take height) with _ | rows
        · simp only [hheader, hrows, bind, Except.bind] at hok
          cases hok
        · simp only [hheader, hrows, bind, Except.bind] at hok
          split at hok
          · next hblank =>
            obtain ⟨rfl, rfl, rfl⟩ := ofRows_eq_ok_iff.mp hok
            simp only [List.all_eq_true] at hblank
            exact ⟨header, body, rfl, hheader, hrows, hblank⟩
          · cases hok
  · rintro ⟨header, body, rfl, hheader, hrows, hblank⟩
    have hall : (body.drop g.height).all (fun line => line.all isBlank) = true := by
      simp only [List.all_eq_true]
      exact hblank
    rw [ofLines]
    simp only [hheader, hrows, bind, Except.bind]
    rw [if_pos hall]
    exact ofRows_eq_ok_iff.mpr ⟨rfl, rfl, rfl⟩

end Downhill.Grid
