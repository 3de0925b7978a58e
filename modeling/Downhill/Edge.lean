import Downhill.Grid.Basic

/-!
# Descents from cell to cell

A descent edge leads from a cell to a strictly lower one. The two need not be neighbours.
-/

namespace Downhill

/-- A step from a cell down to a strictly lower one. -/
structure Edge (g : Grid) where
  upper : g.Node
  lower : g.Node
  descends : g.elevation lower < g.elevation upper
deriving DecidableEq

namespace Edge

variable {g : Grid}

/-- The edge from `upper` down to `lower`, if it goes down. -/
def ofNodes? (upper lower : g.Node) : Option (Edge g) :=
  if h : g.elevation lower < g.elevation upper then some ⟨upper, lower, h⟩ else none

/-- The edge between two cells, from the higher to the lower; none between equally high cells. -/
def between? (a b : g.Node) : Option (Edge g) :=
  (ofNodes? a b).or (ofNodes? b a)

/-- The edge between the cells with the given numbers, if there are such cells and it goes down. -/
def ofNat? (g : Grid) (upper lower : Nat) : Option (Edge g) := do
  ofNodes? (← g.nodeOfNat? upper) (← g.nodeOfNat? lower)

theorem ofNodes?_eq_some_iff {upper lower : g.Node} {e : Edge g} :
    ofNodes? upper lower = some e ↔ e.upper = upper ∧ e.lower = lower := by
  unfold ofNodes?
  constructor
  · intro h
    split at h
    · cases h
      exact ⟨rfl, rfl⟩
    · contradiction
  · rintro ⟨rfl, rfl⟩
    rw [dif_pos e.descends]

theorem upper_ne_lower (e : Edge g) : e.upper ≠ e.lower := by
  intro h
  have := e.descends
  rw [h] at this
  omega

end Edge

end Downhill
