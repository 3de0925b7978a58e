import Mathlib.Data.List.Chain
import Mathlib.Order.Bounds.Basic

/-!
# Walks and heights

A walk goes from element to element along a relation. A height of a relation gives for each element one more than
the greatest height of the elements that it leads to, and 0 where it leads nowhere; this local rule says the same as
the global one, that the height of an element is the greatest number of steps of a walk from it.

* `Walk.trans`, `walk_iff_isChain`                : walks compose, and are chains of elements;
* `IsHeight.isGreatest`, `isHeight_of_isGreatest` : the local and the global rule for heights;
* `IsHeight.unique`, `IsHeight.eq_max`            : a relation has one height at most, which recursion gives.
-/

namespace Downhill

variable {α : Type} {r s : α → α → Prop}

/-- The element `b` is reached from `a` in `n` steps. -/
inductive Walk (r : α → α → Prop) : Nat → α → α → Prop
  | nil (a : α) : Walk r 0 a a
  | cons {n : Nat} {a b c : α} : r a b → Walk r n b c → Walk r (n + 1) a c

namespace Walk

theorem single {a b : α} (h : r a b) : Walk r 1 a b :=
  cons h (nil b)

theorem trans {m n : Nat} {a b c : α} (h : Walk r m a b) (h' : Walk r n b c) : Walk r (m + n) a c := by
  induction h with
  | nil a => simpa using h'
  | cons hr _ ih =>
    rw [Nat.add_right_comm]
    exact cons hr (ih h')

theorem mono (hrs : ∀ a b, r a b → s a b) {n : Nat} {a b : α} (h : Walk r n a b) : Walk s n a b := by
  induction h with
  | nil a => exact nil a
  | cons hr _ ih => exact cons (hrs _ _ hr) ih

end Walk

theorem walk_zero_iff {a b : α} : Walk r 0 a b ↔ a = b := by
  constructor
  · intro h
    cases h
    rfl
  · rintro rfl
    exact .nil a

theorem walk_succ_iff {n : Nat} {a c : α} : Walk r (n + 1) a c ↔ ∃ b, r a b ∧ Walk r n b c := by
  constructor
  · intro h
    cases h with
    | cons hr h => exact ⟨_, hr, h⟩
  · intro hex
    obtain ⟨b, hr, h⟩ := hex
    exact .cons hr h

theorem walk_congr (hrs : ∀ a b, r a b ↔ s a b) {n : Nat} {a b : α} : Walk r n a b ↔ Walk s n a b :=
  ⟨.mono fun a b => (hrs a b).mp, .mono fun a b => (hrs a b).mpr⟩

/-- A walk of `n` steps is a list of `n` further elements, each related to the one before. -/
theorem walk_iff_isChain {n : Nat} {a b : α} :
    Walk r n a b ↔ ∃ rest : List α, (a :: rest).IsChain r ∧ rest.length = n ∧ rest.getLastD a = b := by
  constructor
  · intro h
    induction h with
    | nil a => exact ⟨[], .singleton a, rfl, rfl⟩
    | @cons n a c b hr _ ih =>
      obtain ⟨rest, hchain, hlength, hlast⟩ := ih
      refine ⟨c :: rest, .cons_cons hr hchain, congrArg (· + 1) hlength, ?_⟩
      rw [List.getLastD_cons, hlast]
  · intro hex
    obtain ⟨rest, hchain, rfl, rfl⟩ := hex
    induction rest generalizing a with
    | nil => exact .nil a
    | cons c rest ih =>
      obtain ⟨hr, hchain⟩ := List.isChain_cons_cons.mp hchain
      rw [List.getLastD_cons]
      exact .cons hr (ih hchain)

/-! ### Heights -/

/-- The numbers of steps of the walks from an element. -/
def walkLengths (r : α → α → Prop) (a : α) : Set Nat :=
  {n | ∃ b, Walk r n a b}

/-- Each step leads to a lesser height, and from a positive height some step leads to the next lower one. -/
structure IsHeight (r : α → α → Prop) (f : α → Nat) : Prop where
  lt_of_rel {a b : α} : r a b → f b < f a
  exists_rel {a : α} : f a ≠ 0 → ∃ b, r a b ∧ f a ≤ f b + 1

namespace IsHeight

variable {f f' : α → Nat}

theorem add_le (h : IsHeight r f) {n : Nat} {a b : α} (hw : Walk r n a b) : f b + n ≤ f a := by
  induction hw with
  | nil a => exact Nat.le_refl _
  | cons hr _ ih =>
    have := h.lt_of_rel hr
    omega

/-- From each element a walk of as many steps as its height leads to height 0. -/
theorem exists_walk (h : IsHeight r f) (a : α) : ∃ b, Walk r (f a) a b := by
  -- the height is what the walk uses up, so the induction is on it
  generalize hn : f a = n
  induction n generalizing a with
  | zero => exact ⟨a, .nil a⟩
  | succ n ih =>
    obtain ⟨b, hr, hab⟩ := h.exists_rel (a := a) (by omega)
    have hb : f b = n := by
      have := h.lt_of_rel hr
      omega
    obtain ⟨c, hw⟩ := ih b hb
    exact ⟨c, .cons hr hw⟩

theorem isGreatest (h : IsHeight r f) (a : α) : IsGreatest (walkLengths r a) (f a) := by
  refine ⟨h.exists_walk a, ?_⟩
  intro n hn
  obtain ⟨b, hw⟩ := hn
  have := h.add_le hw
  omega

theorem unique (h : IsHeight r f) (h' : IsHeight r f') : f = f' :=
  funext fun a => (h.isGreatest a).unique (h'.isGreatest a)

/-- The height of an element by the heights of the elements that it leads to. -/
theorem eq_max (h : IsHeight r f) {a : α} {l : List α} (hl : ∀ b, b ∈ l ↔ r a b) :
    f a = ((l.map fun b => 1 + f b).max?).getD 0 := by
  rcases hm : (l.map fun b => 1 + f b).max? with _ | m
  · rw [List.max?_eq_none_iff, List.map_eq_nil_iff] at hm
    apply Nat.eq_zero_of_not_pos
    intro hpos
    obtain ⟨b, hr, _⟩ := h.exists_rel (a := a) (by omega)
    rw [← hl, hm] at hr
    contradiction
  · obtain ⟨hmem, hle⟩ := List.max?_eq_some_iff.mp hm
    obtain ⟨b, hb, rfl⟩ := List.mem_map.mp hmem
    have hlt := h.lt_of_rel ((hl b).mp hb)
    obtain ⟨c, hr, hc⟩ := h.exists_rel (a := a) (by omega)
    have := hle (1 + f c) (List.mem_map.mpr ⟨c, (hl c).mpr hr, rfl⟩)
    show f a = 1 + f b
    omega

theorem congr (h : IsHeight r f) (hrs : ∀ a b, r a b ↔ s a b) : IsHeight s f where
  lt_of_rel hs := h.lt_of_rel ((hrs _ _).mpr hs)
  exists_rel hf := by
    obtain ⟨b, hr, hab⟩ := h.exists_rel hf
    exact ⟨b, (hrs _ _).mp hr, hab⟩

end IsHeight

theorem isHeight_of_isGreatest {f : α → Nat} (h : ∀ a, IsGreatest (walkLengths r a) (f a)) : IsHeight r f where
  lt_of_rel {a b} hr := by
    obtain ⟨c, hw⟩ := (h b).1
    exact (h a).2 ⟨c, .cons hr hw⟩
  exists_rel {a} hf := by
    obtain ⟨c, hw⟩ := (h a).1
    obtain ⟨n, hn⟩ := Nat.exists_eq_succ_of_ne_zero hf
    rw [hn] at hw
    obtain ⟨b, hr, hw⟩ := walk_succ_iff.mp hw
    have := (h b).2 ⟨c, hw⟩
    exact ⟨b, hr, by omega⟩

end Downhill
