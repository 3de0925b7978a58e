import Downhill.Proofs.Numerals
import Downhill.Text.Line

/-!
# What the lines of a text and the numerals of a line are

Lines and numerals are found by reading a text from its end. Here both are told by how a text is composed, without a
reading: a text is its lines with their line ends between them, and a line is its numerals with what stands between
them, where a numeral is a run of digits that no digit extends, with the minus sign directly before it if there is one.
A text is composed in one way only, and the readings find it.

* `lines_eq_iff`            : the lines of a text;
* `numerals_eq_iff`         : the numerals of a line;
* `numerals_eq_iff_scanned` : the numerals are what a search for their pattern from left to right finds.
-/

namespace Downhill.Text

/-! ### Lines -/

/-- The text is composed of the given lines. A newline, with the carriage return before it if there is one, ends a
line; the last line may lack its end, but is not empty then. -/
inductive Lined : List Char → List (List Char) → Prop
  | nil : Lined [] []
  | last {line : List Char} (hne : line ≠ []) (hline : '\n' ∉ line) : Lined line [line]
  | newline {line text : List Char} {lines : List (List Char)} (hline : '\n' ∉ line)
      (hlast : line.getLast? ≠ some '\r') (htext : Lined text lines) : Lined (line ++ '\n' :: text) (line :: lines)
  | returnNewline {line text : List Char} {lines : List (List Char)} (hline : '\n' ∉ line)
      (htext : Lined text lines) : Lined (line ++ '\r' :: '\n' :: text) (line :: lines)

private theorem Lined.lines_eq {text : List Char} {ls : List (List Char)} (h : Lined text ls) : lines text = ls := by
  induction h with
  | nil => rfl
  | last hne hline => rw [lines_of_not_mem hline, if_neg hne]
  | newline hline hlast _ ih => rw [lines_append_newline hline, ih, dropReturn, if_neg hlast]
  | @returnNewline line text ls hline _ ih =>
    have hreturn : '\n' ∉ line ++ ['\r'] := by simp [hline]
    rw [← List.singleton_append, ← List.append_assoc, lines_append_newline hreturn, ih, dropReturn]
    simp

private theorem exists_lined (text : List Char) : ∃ ls, Lined text ls := by
  -- each line end leaves a shorter text
  induction hn : text.length using Nat.strongRecOn generalizing text with
  | ind n ih =>
    by_cases hmem : '\n' ∈ text
    · obtain ⟨line, rest, rfl, hline⟩ := List.eq_append_cons_of_mem hmem
      obtain ⟨ls, hrest⟩ := ih rest.length (by simp at hn; omega) rest rfl
      by_cases hlast : line.getLast? = some '\r'
      · obtain ⟨start, rfl⟩ := List.getLast?_eq_some_iff.mp hlast
        have hstart : '\n' ∉ start := fun hc => hline (List.mem_append_left _ hc)
        refine ⟨start :: ls, ?_⟩
        rw [List.append_assoc, List.singleton_append]
        exact .returnNewline hstart hrest
      · exact ⟨line :: ls, .newline hline hlast hrest⟩
    · by_cases hnil : text = []
      · exact ⟨[], hnil ▸ .nil⟩
      · exact ⟨[text], .last hnil hmem⟩

/-- The lines of a text are those that it is composed of. -/
theorem lines_eq_iff {text : List Char} {ls : List (List Char)} : lines text = ls ↔ Lined text ls := by
  refine ⟨?_, Lined.lines_eq⟩
  rintro rfl
  obtain ⟨ls, hls⟩ := exists_lined text
  rw [hls.lines_eq]
  exact hls

/-! ### Numerals -/

/-- A run of digits with the minus sign directly before it, if what stands before it ends in one. -/
def signed (before digits : List Char) : List Char :=
  if before.getLast? = some '-' then '-' :: digits else digits

/-- The line is composed of the given numerals: before a numeral and after the last one stand no digits, and a numeral
is a run of digits that ends where the next character is none, with its sign. -/
inductive Numbered : List Char → List (List Char) → Prop
  | nil {line : List Char} (hline : Filler line) : Numbered line []
  | cons {before digits rest : List Char} {l : List (List Char)} (hbefore : Filler before) (hne : digits ≠ [])
      (hdigits : ∀ c ∈ digits, isDecimalDigit c = true) (hbreaks : Breaks rest) (hrest : Numbered rest l) :
      Numbered (before ++ (digits ++ rest)) (signed before digits :: l)

private theorem Numbered.numerals_eq {line : List Char} {l : List (List Char)} (h : Numbered line l) :
    numerals line = l := by
  induction h with
  | @nil line hline =>
    have hnone := numerals_append_filler [] hline
    exact hnone
  | @cons before digits rest l hbefore hne hdigits hbreaks _ ih =>
    unfold signed
    split
    · next hlast =>
      obtain ⟨start, rfl⟩ := List.getLast?_eq_some_iff.mp hlast
      have hstart : Filler start := fun c hc => hbefore c (List.mem_append_left _ hc)
      have hminus : Breaks ('-' :: (digits ++ rest)) := by
        intro c hc
        obtain rfl : '-' = c := Option.some.inj hc
        decide
      rw [List.append_assoc, List.singleton_append, numerals_filler_append hstart (.inr hminus),
        numerals_minus_append hne hdigits hbreaks, ih]
    · next hlast =>
      rw [numerals_filler_append hbefore (.inl hlast), numerals_digits_append hne hdigits hbreaks, ih]

private theorem breaks_dropWhile (line : List Char) : Breaks (line.dropWhile isDecimalDigit) := by
  intro c hc
  have hhead := List.head?_dropWhile_not isDecimalDigit line
  rw [Option.mem_def.mp hc] at hhead
  exact hhead

private theorem exists_first_digit {line : List Char} (h : ¬Filler line) :
    ∃ c before tail, line = before ++ c :: tail ∧ isDecimalDigit c = true ∧ Filler before := by
  rcases hfind : line.find? isDecimalDigit with _ | c
  · rw [List.find?_eq_none] at hfind
    exact absurd (fun c hc => Bool.eq_false_iff.mpr (hfind c hc)) h
  · obtain ⟨hc, before, tail, hline, hbefore⟩ := List.find?_eq_some_iff_append.mp hfind
    exact ⟨c, before, tail, hline, hc, fun d hd => by simpa using hbefore d hd⟩

private theorem exists_numbered (line : List Char) : ∃ l, Numbered line l := by
  -- what follows the first run of digits is shorter than the line
  induction hn : line.length using Nat.strongRecOn generalizing line with
  | ind n ih =>
    by_cases hfiller : Filler line
    · exact ⟨[], .nil hfiller⟩
    · obtain ⟨c, before, tail, rfl, hc, hbefore⟩ := exists_first_digit hfiller
      have hsplit : before ++ c :: tail =
          before ++ ((c :: tail.takeWhile isDecimalDigit) ++ tail.dropWhile isDecimalDigit) := by
        rw [List.cons_append, List.takeWhile_append_dropWhile]
      have hshorter : (tail.dropWhile isDecimalDigit).length < n := by
        have := (List.dropWhile_sublist isDecimalDigit (l := tail)).length_le
        simp at hn
        omega
      have hdigits : ∀ d ∈ c :: tail.takeWhile isDecimalDigit, isDecimalDigit d = true :=
        List.forall_mem_cons.mpr ⟨hc, List.all_eq_true.mp List.all_takeWhile⟩
      obtain ⟨l, hl⟩ := ih _ hshorter _ rfl
      rw [hsplit]
      exact ⟨_, .cons hbefore (by simp) hdigits (breaks_dropWhile tail) hl⟩

/-- The numerals of a line are those that it is composed of. -/
theorem numerals_eq_iff {line : List Char} {l : List (List Char)} : numerals line = l ↔ Numbered line l := by
  refine ⟨?_, Numbered.numerals_eq⟩
  rintro rfl
  obtain ⟨l, hl⟩ := exists_numbered line
  rw [hl.numerals_eq]
  exact hl

/-! ### Numerals as matches of a pattern -/

/-- One or more decimal digits, after a minus sign or without one. -/
def Matches (m : List Char) : Prop :=
  ∃ digits : List Char, digits ≠ [] ∧ (∀ c ∈ digits, isDecimalDigit c = true) ∧ (m = digits ∨ m = '-' :: digits)

/-- The matches in a line from left to right. A match starts as early as one can and is the longest that starts there,
and the next is sought behind it. -/
inductive Scanned : List Char → List (List Char) → Prop
  | nil {line : List Char} (hnone : ∀ before m rest, line = before ++ (m ++ rest) → ¬Matches m) : Scanned line []
  | cons {before m rest : List Char} {l : List (List Char)} (hm : Matches m)
      (hfirst : ∀ before' m' rest', before ++ (m ++ rest) = before' ++ (m' ++ rest') → Matches m' →
        before.length ≤ before'.length)
      (hlongest : ∀ m' rest', m ++ rest = m' ++ rest' → Matches m' → m'.length ≤ m.length)
      (hrest : Scanned rest l) : Scanned (before ++ (m ++ rest)) (m :: l)

private theorem Matches.exists_digit {m : List Char} (h : Matches m) : ∃ c ∈ m, isDecimalDigit c = true := by
  obtain ⟨digits, hne, hdigits, hm⟩ := h
  obtain ⟨c, hc⟩ := List.exists_mem_of_ne_nil digits hne
  refine ⟨c, ?_, hdigits c hc⟩
  rcases hm with rfl | rfl
  · exact hc
  · exact List.mem_cons_of_mem _ hc

/-- All characters of a match but the first are digits. -/
private theorem Matches.isDecimalDigit_of_append {m rest : List Char} {c : Char} (h : Matches (m ++ c :: rest))
    (hne : m ≠ []) :
    isDecimalDigit c = true := by
  obtain ⟨digits, -, hdigits, hm | hm⟩ := h
  · exact hdigits c (by simp [← hm])
  · obtain ⟨d, m, rfl⟩ := List.exists_cons_of_ne_nil hne
    rw [List.cons_append, List.cons.injEq] at hm
    exact hdigits c (by simp [← hm.2])

/-- Where no digits stand no match starts, but for the minus sign at the end. -/
private theorem Matches.start_of_filler {before rest before' m rest' : List Char} (h : Matches m)
    (hbefore : Filler before) (heq : before ++ rest = before' ++ (m ++ rest')) :
    before.length ≤ before'.length ∨ before = before' ++ ['-'] := by
  rcases List.append_eq_append_iff.mp heq with ⟨between, rfl, -⟩ | ⟨between, rfl, hm⟩
  · left
    simp
  · -- the match starts with what lies between, unless that is empty
    match between with
    | [] => simp
    | c :: between =>
      have hbetween : ∀ d ∈ c :: between, isDecimalDigit d = false := fun d hd => hbefore d (List.mem_append_right _ hd)
      obtain ⟨digits, hne, hdigits, rfl | rfl⟩ := h
      · obtain ⟨d, digits, rfl⟩ := List.exists_cons_of_ne_nil hne
        simp only [List.cons_append, List.cons.injEq] at hm
        have hd := hdigits d List.mem_cons_self
        rw [hm.1, hbetween c List.mem_cons_self] at hd
        contradiction
      · obtain ⟨d, digits, rfl⟩ := List.exists_cons_of_ne_nil hne
        simp only [List.cons_append, List.cons.injEq] at hm
        obtain ⟨rfl, hm⟩ := hm
        match between with
        | [] => exact .inr rfl
        | c :: between =>
          simp only [List.cons_append, List.cons.injEq] at hm
          have hd := hdigits d List.mem_cons_self
          rw [hm.1, hbetween c (by simp)] at hd
          contradiction

/-- A match that no digit follows cannot be longer. -/
private theorem Matches.length_le_of_breaks {m rest m' rest' : List Char} (hm : Matches m) (hbreaks : Breaks rest)
    (heq : m ++ rest = m' ++ rest') (hm' : Matches m') : m'.length ≤ m.length := by
  have hne : m ≠ [] := by
    obtain ⟨c, hc, -⟩ := hm.exists_digit
    exact List.ne_nil_of_mem hc
  rcases List.append_eq_append_iff.mp heq with ⟨more, rfl, hrest⟩ | ⟨more, rfl, -⟩
  · match more with
    | [] => simp
    | c :: more =>
      have hc := hbreaks c (by rw [hrest]; rfl)
      rw [hm'.isDecimalDigit_of_append hne] at hc
      contradiction
  · simp

private theorem Numbered.scanned {line : List Char} {l : List (List Char)} (h : Numbered line l) : Scanned line l := by
  induction h with
  | @nil line hline =>
    refine .nil ?_
    rintro before m rest rfl hm
    obtain ⟨c, hc, hdigit⟩ := hm.exists_digit
    rw [hline c (by simp [hc])] at hdigit
    contradiction
  | @cons before digits rest l hbefore hne hdigits hbreaks _ ih =>
    unfold signed
    split
    · next hlast =>
      obtain ⟨start, rfl⟩ := List.getLast?_eq_some_iff.mp hlast
      have hm : Matches ('-' :: digits) := ⟨digits, hne, hdigits, .inr rfl⟩
      have hline : start ++ ['-'] ++ (digits ++ rest) = start ++ ('-' :: digits ++ rest) := by simp
      rw [hline]
      refine .cons hm ?_ (fun _ _ => hm.length_le_of_breaks hbreaks) ih
      intro before' m' rest' heq hm'
      rw [← hline] at heq
      rcases hm'.start_of_filler hbefore heq with hle | hstart
      · rw [List.length_append] at hle
        omega
      · exact Nat.le_of_eq (congrArg List.length (List.append_cancel_right hstart))
    · next hlast =>
      have hm : Matches digits := ⟨digits, hne, hdigits, .inl rfl⟩
      refine .cons hm ?_ (fun _ _ => hm.length_le_of_breaks hbreaks) ih
      intro before' m' rest' heq hm'
      refine (hm'.start_of_filler hbefore heq).resolve_right ?_
      rintro rfl
      simp at hlast

theorem Scanned.unique {line : List Char} {l l' : List (List Char)} (h : Scanned line l) (h' : Scanned line l') :
    l = l' := by
  induction h generalizing l' with
  | nil hnone =>
    cases h' with
    | nil => rfl
    | cons hm => exact absurd hm (hnone _ _ _ rfl)
  | @cons before m rest l hm hfirst hlongest _ ih =>
    generalize hline : before ++ (m ++ rest) = line at h'
    cases h' with
    | nil hnone => exact absurd hm (hnone _ _ _ hline.symm)
    | @cons before' m' rest' l' hm' hfirst' hlongest' hrest' =>
      have hbefore : before.length = before'.length :=
        Nat.le_antisymm (hfirst _ _ _ hline hm') (hfirst' _ _ _ hline.symm hm)
      obtain ⟨rfl, hafter⟩ := List.append_inj hline hbefore
      have hlength : m.length = m'.length :=
        Nat.le_antisymm (hlongest' _ _ hafter.symm hm) (hlongest _ _ hafter hm')
      obtain ⟨rfl, rfl⟩ := List.append_inj hafter hlength
      rw [ih hrest']

/-- The numerals of a line are the matches of their pattern, each as early and as long as can be. -/
theorem numerals_eq_iff_scanned {line : List Char} {l : List (List Char)} : numerals line = l ↔ Scanned line l := by
  have hscanned : Scanned line (numerals line) := (numerals_eq_iff.mp rfl).scanned
  constructor
  · rintro rfl
    exact hscanned
  · exact hscanned.unique

end Downhill.Text
