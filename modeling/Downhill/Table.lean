/-!
# Tables

A table holds a value for each of finitely many numbered things, here mostly for the cells of a grid.

* `get_put` : what a table holds after one value is replaced;
* `ext_get` : two tables with the same values are equal.
-/

namespace Downhill

/-- A value for each of `n` numbered things. -/
abbrev Table (α : Type) (n : Nat) : Type := Vector α n

namespace Table

variable {α : Type} {n : Nat}

/-- The table that holds the same value everywhere. -/
def constant (n : Nat) (a : α) : Table α n :=
  Vector.replicate n a

/-- The table that holds `a` at `i` and is otherwise as before. -/
def put (t : Table α n) (i : Fin n) (a : α) : Table α n :=
  t.set i.val a i.isLt

@[simp] theorem get_constant (a : α) (i : Fin n) : (constant n a).get i = a := by
  simp [constant, Vector.get]

@[simp] theorem get_ofFn (f : Fin n → α) (i : Fin n) : (Vector.ofFn f).get i = f i :=
  Vector.getElem_ofFn i.isLt

theorem get_put (t : Table α n) (i j : Fin n) (a : α) : (t.put i a).get j = if j = i then a else t.get j := by
  have h : (t.put i a).get j = (t.set i.val a i.isLt)[j.val] := rfl
  rw [h, Vector.getElem_set]
  simp only [Fin.val_inj, eq_comm (a := j)]
  rfl

theorem ext_get {s t : Table α n} (h : ∀ i, s.get i = t.get i) : s = t :=
  Vector.ext fun i hi => h ⟨i, hi⟩

end Table

end Downhill
