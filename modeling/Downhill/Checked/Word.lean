import Mathlib.Algebra.GroupWithZero.Nat

/-!
# Checked arithmetic

The numbers of a run are unsigned 64-bit words. An operation whose value no word holds has no result.

* `add_eq_some`, `mul_eq_some`, `sum_eq_some` : an operation that stays in range gives the exact value.
-/

namespace Downhill.Checked

/-- The number, if a word holds it. -/
def word? (n : Nat) : Option Nat :=
  if n < UInt64.size then some n else none

def add (a b : Nat) : Option Nat :=
  word? (a + b)

def mul (a b : Nat) : Option Nat :=
  word? (a * b)

def sub (a b : Nat) : Option Nat :=
  if b ≤ a then some (a - b) else none

def div (a b : Nat) : Option Nat :=
  if b = 0 then none else some (a / b)

def mod (a b : Nat) : Option Nat :=
  if b = 0 then none else some (a % b)

/-- The sum of a list, from the left. -/
def sum (l : List Nat) : Option Nat :=
  l.foldlM add 0

theorem word?_eq_some {n : Nat} (h : n < UInt64.size) : word? n = some n :=
  if_pos h

theorem word?_eq_none {n : Nat} (h : UInt64.size ≤ n) : word? n = none :=
  if_neg (Nat.not_lt.mpr h)

theorem add_eq_some {a b : Nat} (h : a + b < UInt64.size) : add a b = some (a + b) :=
  word?_eq_some h

theorem mul_eq_some {a b : Nat} (h : a * b < UInt64.size) : mul a b = some (a * b) :=
  word?_eq_some h

theorem sub_eq_some {a b : Nat} (h : b ≤ a) : sub a b = some (a - b) :=
  if_pos h

theorem div_eq_some {a b : Nat} (h : 0 < b) : div a b = some (a / b) :=
  if_neg (Nat.ne_of_gt h)

theorem mod_eq_some {a b : Nat} (h : 0 < b) : mod a b = some (a % b) :=
  if_neg (Nat.ne_of_gt h)

private theorem foldlM_add {l : List Nat} {a : Nat} (h : a + l.sum < UInt64.size) :
    l.foldlM add a = some (a + l.sum) := by
  induction l generalizing a with
  | nil => rfl
  | cons b l ih =>
    rw [List.sum_cons] at h ⊢
    rw [List.foldlM_cons, add_eq_some (by omega)]
    show l.foldlM add (a + b) = _
    rw [ih (by omega), Nat.add_assoc]

theorem sum_eq_some {l : List Nat} (h : l.sum < UInt64.size) : sum l = some l.sum := by
  have hsum := foldlM_add (a := 0) (l := l) (by omega)
  rwa [Nat.zero_add] at hsum

end Downhill.Checked
