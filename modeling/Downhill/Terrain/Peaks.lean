import Downhill.Terrain.Basic

/-!
# Summits by the length of their descents

Every longest descent of a terrain starts at a summit, so the longest descents are found by looking at summits alone.
-/

namespace Downhill

/-- Counts one more thing of the given length in a table that lists lengths from the longest to the shortest. -/
def tally (length : Nat) : List (Nat × Nat) → List (Nat × Nat)
  | [] => [(length, 1)]
  | (other, count) :: rest =>
    if other < length then (length, 1) :: (other, count) :: rest
    else if other = length then (other, count + 1) :: rest
    else (other, count) :: tally length rest

/-- How often each length occurs, from the longest to the shortest. -/
def histogramOf (lengths : List Nat) : List (Nat × Nat) :=
  lengths.foldr tally []

namespace Terrain

variable {g : Grid}

/-- The lengths of the longest descents from the summits. -/
def summitLengths (t : Terrain g) : List Nat :=
  t.summits.map fun v => t.longest.get v

/-- The length of the longest descent from any summit, if there is a summit. -/
def maxLength? (t : Terrain g) : Option Nat :=
  t.summitLengths.max?

/-- The summits whose longest descent has the given length, in ascending order. -/
def summitsOfLength (t : Terrain g) (length : Nat) : List g.Node :=
  t.summits.filter fun v => t.longest.get v = length

/-- The summits whose longest descent has the target length, or the length of the longest descent from any summit
if no target is given. -/
def peaks (t : Terrain g) (target : Option Nat) : List g.Node :=
  match target.or t.maxLength? with
  | some length => t.summitsOfLength length
  | none => []

/-- How many summits there are for each length of their longest descent, from the longest to the shortest. -/
def histogram (t : Terrain g) : List (Nat × Nat) :=
  histogramOf t.summitLengths

theorem mem_summitsOfLength {t : Terrain g} {length : Nat} {v : g.Node} :
    v ∈ t.summitsOfLength length ↔ t.summit.get v = true ∧ t.longest.get v = length := by
  simp [summitsOfLength, mem_summits]

end Terrain

end Downhill
