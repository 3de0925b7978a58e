import Downhill.Text.Numeral

/-!
# Numerals among other characters

A line is read from its end, so what is known of a tail decides how the characters before it are read: a digit in
front of it makes its first run of digits longer, any other character closes that run, and a minus sign joins the run
that it closes. Characters that are no digits otherwise leave no trace.

* `numerals_filler_append`, `numerals_append_filler` : what stands before and after the numerals of a line;
* `numerals_digits_append`, `numerals_minus_append`  : a run of digits and a run with its sign are numerals;
* `two_mul_length_numerals_le`                       : a numeral takes up two characters, but for the last.
-/

namespace Downhill.Text

/-- Characters none of which is a decimal digit. -/
def Filler (l : List Char) : Prop :=
  ∀ c ∈ l, isDecimalDigit c = false

instance (l : List Char) : Decidable (Filler l) :=
  List.decidableBAll (fun c => isDecimalDigit c = false) l

/-- What follows does not start with a decimal digit. -/
def Breaks (rest : List Char) : Prop :=
  ∀ c ∈ rest.head?, isDecimalDigit c = false

theorem Filler.breaks {l : List Char} (h : Filler l) : Breaks l :=
  fun c hc => h c (List.mem_of_mem_head? hc)

theorem Filler.breaks_append {l : List Char} (h : Filler l) (hne : l ≠ []) (rest : List Char) :
    Breaks (l ++ rest) := by
  cases l with
  | nil => exact absurd rfl hne
  | cons d l => exact h.breaks

/-! ### The state of a reading -/

/-- What a tail of a line holds. -/
def Numerals.scan (line : List Char) : Numerals :=
  line.foldr pushFront ⟨[], []⟩

namespace Numerals

private theorem scan_cons (c : Char) (line : List Char) : scan (c :: line) = pushFront c (scan line) := rfl

private theorem run_scan_of_breaks {rest : List Char} (h : Breaks rest) : (scan rest).run = [] := by
  cases rest with
  | nil => rfl
  | cons c rest =>
    have hc : isDecimalDigit c = false := h c rfl
    rw [scan_cons]
    unfold pushFront
    rw [hc]
    simp only [Bool.false_eq_true, if_false]
    split <;> rfl

private theorem scan_digits_append {digits : List Char} (h : ∀ c ∈ digits, isDecimalDigit c = true) (rest : List Char) :
    scan (digits ++ rest) = ⟨digits ++ (scan rest).run, (scan rest).closed⟩ := by
  induction digits with
  | nil => rfl
  | cons c digits ih =>
    obtain ⟨hc, hdigits⟩ := List.forall_mem_cons.mp h
    rw [List.cons_append, scan_cons, ih hdigits, pushFront, if_pos hc]
    rfl

/-- A character that is no digit, in front of a tail that does not start with one. -/
private theorem pushFront_of_run_eq_nil {c : Char} (hc : isDecimalDigit c = false) {s : Numerals} (hs : s.run = []) :
    pushFront c s = ⟨[], s.closed⟩ := by
  unfold pushFront toList
  simp [hc, hs]

private theorem scan_filler_append {filler rest : List Char} (hne : filler ≠ []) (h : Filler filler)
    (hlast : filler.getLast? ≠ some '-' ∨ Breaks rest) : scan (filler ++ rest) = ⟨[], numerals rest⟩ := by
  induction filler with
  | nil => contradiction
  | cons c filler ih =>
    obtain ⟨hc, hfiller⟩ := List.forall_mem_cons.mp h
    rw [List.cons_append, scan_cons]
    cases filler with
    | nil =>
      have hminus : ¬(c = '-' ∧ (scan rest).run ≠ []) := by
        rintro ⟨rfl, hrun⟩
        rcases hlast with hlast | hrest
        · exact hlast rfl
        · exact hrun (run_scan_of_breaks hrest)
      unfold pushFront
      rw [hc, if_neg (by simp), List.nil_append, if_neg hminus]
      rfl
    | cons d filler =>
      rw [List.getLast?_cons_cons] at hlast
      rw [ih (by simp) hfiller hlast, pushFront_of_run_eq_nil hc rfl]

private theorem scan_filler {filler : List Char} (h : Filler filler) : scan filler = ⟨[], []⟩ := by
  cases filler with
  | nil => rfl
  | cons c filler =>
    have hbreaks : Breaks [] := fun _ hc => by simp at hc
    have hscan := scan_filler_append (by simp) h (.inr hbreaks)
    rwa [List.append_nil, numerals_nil] at hscan

/-- A tail is at least as long as its open run and two characters for each closed numeral. -/
private theorem length_scan_le (line : List Char) :
    2 * (scan line).closed.length + (scan line).run.length ≤ line.length := by
  induction line with
  | nil => exact Nat.le_refl _
  | cons c line ih =>
    rw [scan_cons, List.length_cons]
    unfold pushFront toList
    split
    · simp only [List.length_cons]
      omega
    · by_cases hrun : (scan line).run = []
      · simp [hrun]
        omega
      · have := List.length_pos_iff.mpr hrun
        split <;> simp <;> omega

end Numerals

/-! ### The numerals of a line -/

open Numerals

variable {filler digits rest : List Char}

private theorem numerals_of_breaks (h : Breaks rest) : numerals rest = (scan rest).closed := by
  show (scan rest).toList = _
  rw [toList, if_pos (run_scan_of_breaks h)]

theorem numerals_filler_append (h : Filler filler) (hlast : filler.getLast? ≠ some '-' ∨ Breaks rest) :
    numerals (filler ++ rest) = numerals rest := by
  by_cases hne : filler = []
  · rw [hne, List.nil_append]
  · show (scan (filler ++ rest)).toList = _
    rw [scan_filler_append hne h hlast]
    rfl

theorem numerals_append_filler (line : List Char) (h : Filler filler) : numerals (line ++ filler) = numerals line := by
  have hfiller : filler.foldr pushFront ⟨[], []⟩ = ⟨[], []⟩ := scan_filler h
  rw [numerals, List.foldr_append, hfiller]
  rfl

theorem numerals_digits_append (hne : digits ≠ []) (h : ∀ c ∈ digits, isDecimalDigit c = true) (hrest : Breaks rest) :
    numerals (digits ++ rest) = digits :: numerals rest := by
  show (scan (digits ++ rest)).toList = _
  rw [scan_digits_append h, run_scan_of_breaks hrest, List.append_nil, toList, if_neg hne, numerals_of_breaks hrest]

theorem numerals_minus_append (hne : digits ≠ []) (h : ∀ c ∈ digits, isDecimalDigit c = true) (hrest : Breaks rest) :
    numerals ('-' :: (digits ++ rest)) = ('-' :: digits) :: numerals rest := by
  have hminus : isDecimalDigit '-' = false := by decide
  show (scan ('-' :: (digits ++ rest))).toList = _
  rw [scan_cons, scan_digits_append h, run_scan_of_breaks hrest, List.append_nil]
  unfold pushFront
  rw [hminus, if_neg (by simp), if_pos ⟨rfl, hne⟩, toList, if_pos rfl, numerals_of_breaks hrest]

/-- Two numerals have a character between them, or the second has a sign. -/
theorem two_mul_length_numerals_le (line : List Char) : 2 * (numerals line).length ≤ line.length + 1 := by
  have hle := length_scan_le line
  show 2 * (scan line).toList.length ≤ _
  unfold toList
  split
  · omega
  · next hrun =>
    have := List.length_pos_iff.mpr hrun
    rw [List.length_cons]
    omega

end Downhill.Text
