import Downhill.Edge
import Downhill.Proofs.Walk
import Mathlib.Data.Finset.Card
import Mathlib.Data.Fintype.Card

/-!
# Elevations along a descent

Each step of a descent leads to a lower elevation, so a descent has at most as many steps as the grid has different
elevations below that of its first cell, and fewer than the grid has cells.

* `elevation_le_of_walk`      : the last cell of a descent is not higher than the first;
* `Walk.add_card_below_le`    : the number of steps, bounded by the elevations passed;
* `sub_elevation_lt`          : the drop between two cells fits an unsigned word.
-/

namespace Downhill

namespace Grid

variable {g : Grid}

/-- The different elevations of the grid that are lower than that of a cell. -/
def below (g : Grid) (v : g.Node) : Finset Int :=
  (Finset.univ.image g.elevation).filter (· < g.elevation v)

private theorem mem_below {v : g.Node} {z : Int} : z ∈ g.below v ↔ (∃ u, g.elevation u = z) ∧ z < g.elevation v := by
  simp [below]

/-- A lower cell has fewer elevations below it. -/
theorem card_below_lt {u v : g.Node} (h : g.elevation u < g.elevation v) : (g.below u).card < (g.below v).card := by
  apply Finset.card_lt_card
  rw [Finset.ssubset_iff_of_subset]
  · exact ⟨g.elevation u, mem_below.mpr ⟨⟨u, rfl⟩, h⟩, fun hu => by have := (mem_below.mp hu).2; omega⟩
  · intro z hz
    obtain ⟨hz, hzu⟩ := mem_below.mp hz
    exact mem_below.mpr ⟨hz, by omega⟩

/-- A cell's own elevation is not below it. -/
theorem card_below_lt_size (v : g.Node) : (g.below v).card < g.size := by
  have hv : g.elevation v ∉ g.below v := fun h => by have := (mem_below.mp h).2; omega
  have hsub : insert (g.elevation v) (g.below v) ⊆ Finset.univ.image g.elevation := by
    intro z hz
    rcases Finset.mem_insert.mp hz with rfl | hz
    · exact Finset.mem_image_of_mem _ (Finset.mem_univ v)
    · exact (Finset.mem_filter.mp hz).1
  calc (g.below v).card < (insert (g.elevation v) (g.below v)).card := by
        rw [Finset.card_insert_of_notMem hv]
        omega
    _ ≤ (Finset.univ.image g.elevation).card := Finset.card_le_card hsub
    _ ≤ (Finset.univ : Finset g.Node).card := Finset.card_image_le
    _ = g.size := Finset.card_fin _

private theorem le_elevation (v : g.Node) : Int64.minValue.toInt ≤ g.elevation v :=
  Int64.minValue_le_toInt _

private theorem elevation_le (v : g.Node) : g.elevation v ≤ Int64.maxValue.toInt :=
  Int64.toInt_le _

/-- The drop between two cells is less than the number of 64-bit words. -/
theorem sub_elevation_lt (u v : g.Node) : g.elevation u - g.elevation v < UInt64.size := by
  have hu := elevation_le u
  have hv := le_elevation v
  simp only [Int64.toInt_maxValue, Int64.toInt_minValue, UInt64.size] at *
  omega

end Grid

/-! ### Descents -/

variable {g : Grid} {r : g.Node → g.Node → Prop}

theorem elevation_le_of_walk (hr : ∀ u v, r u v → g.elevation v < g.elevation u) {n : Nat} {u v : g.Node}
    (h : Walk r n u v) : g.elevation v ≤ g.elevation u := by
  induction h with
  | nil v => exact Int.le_refl _
  | cons huw _ ih =>
    have := hr _ _ huw
    omega

/-- A descent of `n` steps passes `n` elevations. -/
theorem Walk.add_card_below_le (hr : ∀ u v, r u v → g.elevation v < g.elevation u) {n : Nat} {u v : g.Node}
    (h : Walk r n u v) : (g.below v).card + n ≤ (g.below u).card := by
  induction h with
  | nil v => exact Nat.le_refl _
  | cons huw _ ih =>
    have := Grid.card_below_lt (hr _ _ huw)
    omega

end Downhill
