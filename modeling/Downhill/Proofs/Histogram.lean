import Downhill.Terrain.Peaks
import Mathlib.Algebra.GroupWithZero.Nat
import Mathlib.Data.List.Sort

/-!
# How often each length occurs

A histogram is a table with the lengths in strictly descending order, and what it has for a length is how often the
length occurs, 0 where it has nothing. So histograms of lists with the same lengths, in whatever order, are the same
for each length, and those of two lists add up to that of both together.

* `pairwise_tally`, `lookup_tally`      : what it does to a table to count one more length;
* `lookup_histogramOf`, `mem_histogramOf` : what a histogram has for a length;
* `histogramOf_perm`                    : the order of counting does not matter;
* `sum_map_snd_histogramOf`             : each element is counted once.
-/

namespace Downhill

/-- A table of counts, from the longest length to the shortest, each length once. -/
abbrev Descending (table : List (Nat × Nat)) : Prop :=
  table.Pairwise fun entry entry' => entry'.1 < entry.1

private theorem forall_lt_tally {length bound : Nat} {table : List (Nat × Nat)} (hlength : length < bound)
    (h : ∀ entry ∈ table, entry.1 < bound) : ∀ entry ∈ tally length table, entry.1 < bound := by
  induction table with
  | nil => simpa [tally] using hlength
  | cons entry table ih =>
    obtain ⟨hentry, htable⟩ := List.forall_mem_cons.mp h
    rw [tally]
    split
    · exact List.forall_mem_cons.mpr ⟨hlength, h⟩
    · split
      · exact List.forall_mem_cons.mpr ⟨hentry, htable⟩
      · exact List.forall_mem_cons.mpr ⟨hentry, ih htable⟩

theorem pairwise_tally (length : Nat) {table : List (Nat × Nat)} (h : Descending table) :
    Descending (tally length table) := by
  induction table with
  | nil => exact List.pairwise_singleton _ _
  | cons entry table ih =>
    obtain ⟨hentry, htable⟩ := List.pairwise_cons.mp h
    rw [tally]
    split
    · next hlt =>
      refine List.pairwise_cons.mpr ⟨List.forall_mem_cons.mpr ⟨hlt, ?_⟩, h⟩
      intro other hother
      exact Nat.lt_trans (hentry other hother) hlt
    · next hle =>
      split
      · exact List.pairwise_cons.mpr ⟨hentry, htable⟩
      · next hne =>
        exact List.pairwise_cons.mpr ⟨forall_lt_tally (by omega) hentry, ih htable⟩

theorem pairwise_histogramOf (lengths : List Nat) : Descending (histogramOf lengths) := by
  induction lengths with
  | nil => exact List.Pairwise.nil
  | cons length lengths ih => exact pairwise_tally length ih

private theorem lookup_eq_none_of_forall_lt {length : Nat} {table : List (Nat × Nat)}
    (h : ∀ entry ∈ table, entry.1 < length) :
    table.lookup length = none := by
  rw [List.lookup_eq_none_iff]
  intro entry hentry
  have := h entry hentry
  exact bne_iff_ne.mpr (by omega)

private theorem getD_lookup_cons (n length count : Nat) (table : List (Nat × Nat)) :
    (((length, count) :: table).lookup n).getD 0 = if length = n then count else (table.lookup n).getD 0 := by
  rw [List.lookup_cons]
  by_cases heq : length = n
  · simp [heq]
  · rw [if_neg heq, beq_eq_false_iff_ne.mpr (Ne.symm heq)]

/-- To count one more length changes the count of that length only. -/
theorem lookup_tally (length n : Nat) {table : List (Nat × Nat)} (h : Descending table) :
    ((tally length table).lookup n).getD 0 = (table.lookup n).getD 0 + if length = n then 1 else 0 := by
  induction table with
  | nil =>
    rw [tally, getD_lookup_cons, List.lookup_nil, Option.getD_none, Nat.zero_add]
  | cons entry table ih =>
    obtain ⟨other, count⟩ := entry
    obtain ⟨hother, htable⟩ := List.pairwise_cons.mp h
    rw [tally]
    split
    · -- a length above all others is new
      next hlt =>
      have hnew : ((other, count) :: table).lookup length = none := by
        refine lookup_eq_none_of_forall_lt (List.forall_mem_cons.mpr ⟨hlt, ?_⟩)
        intro entry hentry
        exact Nat.lt_trans (hother entry hentry) hlt
      rw [getD_lookup_cons]
      by_cases heq : length = n
      · rw [if_pos heq, if_pos heq, ← heq, hnew, Option.getD_none]
      · rw [if_neg heq, if_neg heq, Nat.add_zero]
    · split
      · next heq =>
        rw [getD_lookup_cons, getD_lookup_cons, heq]
        split <;> rfl
      · next hne =>
        rw [getD_lookup_cons, getD_lookup_cons, ih htable]
        by_cases hn : other = n
        · rw [if_pos hn, if_pos hn, if_neg (by omega)]
          rfl
        · rw [if_neg hn, if_neg hn]

/-- A histogram has for each length how often it occurs. -/
theorem lookup_histogramOf (lengths : List Nat) (n : Nat) :
    ((histogramOf lengths).lookup n).getD 0 = lengths.count n := by
  induction lengths with
  | nil => rfl
  | cons length lengths ih =>
    show ((tally length (histogramOf lengths)).lookup n).getD 0 = _
    rw [lookup_tally length n (pairwise_histogramOf lengths), ih, List.count_cons]
    simp only [beq_iff_eq]

/-! ### The entries of a histogram -/

private theorem mem_iff_lookup_eq_some {table : List (Nat × Nat)} (h : Descending table) {n count : Nat} :
    (n, count) ∈ table ↔ table.lookup n = some count := by
  rw [List.lookup_eq_some_iff]
  constructor
  · intro hmem
    obtain ⟨before, after, rfl⟩ := List.append_of_mem hmem
    refine ⟨before, after, rfl, ?_⟩
    intro entry hentry
    have := (List.pairwise_append.mp h).2.2 entry hentry _ List.mem_cons_self
    exact bne_iff_ne.mpr (Nat.ne_of_lt this)
  · rintro ⟨before, after, rfl, -⟩
    simp

private theorem pos_of_mem_tally {length : Nat} {table : List (Nat × Nat)} (h : ∀ entry ∈ table, 0 < entry.2) :
    ∀ entry ∈ tally length table, 0 < entry.2 := by
  induction table with
  | nil => simp [tally]
  | cons entry table ih =>
    obtain ⟨hentry, htable⟩ := List.forall_mem_cons.mp h
    rw [tally]
    split
    · exact List.forall_mem_cons.mpr ⟨Nat.one_pos, h⟩
    · split
      · exact List.forall_mem_cons.mpr ⟨Nat.succ_pos _, htable⟩
      · exact List.forall_mem_cons.mpr ⟨hentry, ih htable⟩

private theorem pos_of_mem_histogramOf (lengths : List Nat) : ∀ entry ∈ histogramOf lengths, 0 < entry.2 := by
  induction lengths with
  | nil => simp [histogramOf]
  | cons length lengths ih => exact pos_of_mem_tally ih

/-- The entries of a histogram are the lengths that occur, each with how often it does. -/
theorem mem_histogramOf {lengths : List Nat} {n count : Nat} :
    (n, count) ∈ histogramOf lengths ↔ 0 < count ∧ count = lengths.count n := by
  rw [← lookup_histogramOf, mem_iff_lookup_eq_some (pairwise_histogramOf lengths)]
  constructor
  · intro hlookup
    have hmem := (mem_iff_lookup_eq_some (pairwise_histogramOf lengths)).mpr hlookup
    exact ⟨pos_of_mem_histogramOf lengths _ hmem, by rw [hlookup, Option.getD_some]⟩
  · rintro ⟨hpos, rfl⟩
    rcases hlookup : (histogramOf lengths).lookup n with _ | count
    · rw [hlookup, Option.getD_none] at hpos
      exact absurd hpos (Nat.lt_irrefl 0)
    · rw [Option.getD_some]

/-- A histogram does not depend on the order in which the lengths are counted. -/
theorem histogramOf_perm {lengths lengths' : List Nat} (h : lengths.Perm lengths') :
    histogramOf lengths = histogramOf lengths' := by
  have : Std.Irrefl fun entry entry' : Nat × Nat => entry'.1 < entry.1 := ⟨fun _ => Nat.lt_irrefl _⟩
  have : Std.Antisymm fun entry entry' : Nat × Nat => entry'.1 < entry.1 :=
    ⟨fun _ _ h h' => absurd h (Nat.lt_asymm h')⟩
  apply List.Pairwise.eq_of_mem_iff (pairwise_histogramOf lengths) (pairwise_histogramOf lengths')
  rintro ⟨n, count⟩
  rw [mem_histogramOf, mem_histogramOf, h.count_eq]

private theorem sum_map_snd_tally (length : Nat) (table : List (Nat × Nat)) :
    ((tally length table).map Prod.snd).sum = (table.map Prod.snd).sum + 1 := by
  induction table with
  | nil => rfl
  | cons entry table ih =>
    rw [tally]
    split
    · simp only [List.map_cons, List.sum_cons]
      omega
    · split
      · simp only [List.map_cons, List.sum_cons]
        omega
      · simp only [List.map_cons, List.sum_cons, ih]
        omega

/-- A histogram counts each element of a list once. -/
theorem sum_map_snd_histogramOf (lengths : List Nat) : ((histogramOf lengths).map Prod.snd).sum = lengths.length := by
  induction lengths with
  | nil => rfl
  | cons length lengths ih =>
    show ((tally length (histogramOf lengths)).map Prod.snd).sum = _
    rw [sum_map_snd_tally, ih, List.length_cons]

end Downhill
