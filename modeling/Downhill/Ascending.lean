/-!
# Ascending lists

A finite set of numbered things has one ascending list. It is made here by inserting one element after another.

* `mem_ascending`      : the ascending list of a list has the same elements;
* `pairwise_ascending` : each element of an ascending list is less than those after it.
-/

namespace Downhill

variable {n : Nat}

/-- Puts an element in its place in an ascending list, unless it is there already. -/
def insertAscending (a : Fin n) : List (Fin n) → List (Fin n)
  | [] => [a]
  | b :: rest => if a < b then a :: b :: rest else if a = b then b :: rest else b :: insertAscending a rest

/-- The elements of a list in ascending order, each once. -/
def ascending (l : List (Fin n)) : List (Fin n) :=
  l.foldr insertAscending []

private theorem mem_insertAscending {a x : Fin n} {l : List (Fin n)} : x ∈ insertAscending a l ↔ x = a ∨ x ∈ l := by
  induction l with
  | nil => simp [insertAscending]
  | cons b l ih =>
    unfold insertAscending
    split
    · simp
    · split
      · next h => simp [h]
      · simp only [List.mem_cons, ih]
        exact or_left_comm

@[simp] theorem mem_ascending {x : Fin n} {l : List (Fin n)} : x ∈ ascending l ↔ x ∈ l := by
  induction l with
  | nil => simp [ascending]
  | cons a l ih =>
    have ih : x ∈ l.foldr insertAscending [] ↔ x ∈ l := ih
    simp [ascending, mem_insertAscending, ih]

private theorem pairwise_insertAscending {a : Fin n} {l : List (Fin n)} (h : l.Pairwise (· < ·)) :
    (insertAscending a l).Pairwise (· < ·) := by
  induction l with
  | nil => simp [insertAscending]
  | cons b l ih =>
    have hb := List.pairwise_cons.mp h
    unfold insertAscending
    split
    · next hab =>
      refine List.pairwise_cons.mpr ⟨fun x hx => ?_, h⟩
      rcases List.mem_cons.mp hx with rfl | hx
      · exact hab
      · exact Fin.lt_trans hab (hb.1 x hx)
    · next hab =>
      split
      · exact h
      · next hne =>
        refine List.pairwise_cons.mpr ⟨fun x hx => ?_, ih hb.2⟩
        rcases mem_insertAscending.mp hx with rfl | hx
        · omega
        · exact hb.1 x hx

theorem pairwise_ascending (l : List (Fin n)) : (ascending l).Pairwise (· < ·) := by
  induction l with
  | nil => exact List.Pairwise.nil
  | cons a l ih => exact pairwise_insertAscending ih

end Downhill
