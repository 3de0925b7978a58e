import Downhill.Proofs.MapText
import Downhill.Proofs.RowFaults

/-!
# Why a text is no map

A text without a grid has exactly one fault, the first of this order (`MapFault`): it has no line; its first line has a
numeral that stands for no word; its first line does not start with a width and a height; one of the next lines, as
many as the height says, has a numeral that stands for no word; a line after those is not blank; and then whatever is
wrong with the rows that were read. So a numeral is at fault before any row is measured, and even if no grid can have
the width and the height.

* `mapM_eq_error_iff`                              : what stops a reading one after another;
* `readLine_eq_error_iff`, `readHeader_eq_error_iff`, `readRows_eq_error_iff` : faults of lines;
* `parse_eq_error_iff`                             : the fault of a text.
-/

namespace Downhill

/-! ### The first fault of a list -/

/-- A reading one after another stops at the first element that is not read, with the fault of that element. -/
theorem mapM_eq_error_iff {α β ε : Type} {f : α → Except ε β} {l : List α} {fault : ε} :
    l.mapM f = .error fault ↔ ∃ before a, FirstMiss (fun a => ∃ b, f a = .ok b) l before a ∧ f a = .error fault := by
  induction l with
  | nil =>
    rw [List.mapM_nil]
    simp [not_firstMiss_nil, pure, Except.pure]
  | cons a l ih =>
    rw [List.mapM_cons]
    simp only [firstMiss_cons_iff]
    rcases ha : f a with fault' | b
    · show Except.error fault' = .error fault ↔ _
      constructor
      · intro h
        obtain rfl := Except.error.inj h
        exact ⟨[], a, .inl ⟨by simp, rfl, rfl⟩, ha⟩
      · rintro ⟨before, a', ⟨-, rfl, rfl⟩ | ⟨⟨b, hb⟩, -⟩, h⟩
        · exact congrArg Except.error (Except.error.inj (ha.symm.trans h))
        · cases hb
    · have hrest : (l.mapM f >>= fun bs => pure (b :: bs)) = .error fault ↔ l.mapM f = .error fault := by
        rcases l.mapM f with _ | bs <;> simp [bind, Except.bind, pure, Except.pure]
      show (l.mapM f >>= fun bs => pure (b :: bs)) = .error fault ↔ _
      rw [hrest, ih]
      constructor
      · rintro ⟨before, a', hmiss, h⟩
        exact ⟨a :: before, a', .inr ⟨⟨b, rfl⟩, before, rfl, hmiss⟩, h⟩
      · rintro ⟨before, a', ⟨hnone, -⟩ | ⟨-, rest, rfl, hmiss⟩, h⟩
        · exact absurd ⟨b, rfl⟩ hnone
        · exact ⟨rest, a', hmiss, h⟩

/-- The first miss of a numbered list is that of the list, with its number. -/
private theorem firstMiss_zipIdx_iff {α : Type} {p : α → Prop} {l : List α} {k : Nat} {pairs : List (α × Nat)}
    {pair : α × Nat} :
    FirstMiss (fun pair => p pair.1) (l.zipIdx k) pairs pair ↔
      ∃ before a, FirstMiss p l before a ∧ pairs = before.zipIdx k ∧ pair = (a, k + before.length) := by
  induction l generalizing k pairs with
  | nil => simp [not_firstMiss_nil]
  | cons b l ih =>
    rw [List.zipIdx_cons]
    simp only [firstMiss_cons_iff, ih]
    constructor
    · rintro (⟨hb, rfl, rfl⟩ | ⟨hb, rest, rfl, before, a, hmiss, rfl, rfl⟩)
      · exact ⟨[], b, .inl ⟨hb, rfl, rfl⟩, rfl, rfl⟩
      · refine ⟨b :: before, a, .inr ⟨hb, before, rfl, hmiss⟩, rfl, ?_⟩
        rw [List.length_cons, Nat.add_right_comm, Nat.add_assoc]
    · rintro ⟨before, a, ⟨hb, rfl, rfl⟩ | ⟨hb, rest, rfl, hmiss⟩, rfl, rfl⟩
      · exact .inl ⟨hb, rfl, rfl⟩
      · refine .inr ⟨hb, _, rfl, rest, a, hmiss, rfl, ?_⟩
        rw [List.length_cons, Nat.add_right_comm, Nat.add_assoc]

namespace Text

/-! ### Faults -/

/-- The numeral is in ASCII digits and has a value that fits a signed 64-bit word. -/
def IsWord (numeral : List Char) : Prop :=
  ∃ value, Denotes numeral value ∧ Fits value

/-- The numeral is the first one in the line that stands for no word. -/
def Unread (line numeral : List Char) : Prop :=
  ∃ numerals before, Numbered line numerals ∧ FirstMiss IsWord numerals before numeral

/-- Why the lines of a text are no map. -/
inductive MapFault : List (List Char) → GridError → Prop
  | noLine : MapFault [] (.header "")
  | headerNumeral {header numeral : List Char} {body : List (List Char)} (hnumeral : Unread header numeral) :
    MapFault (header :: body) (.elevation 1 (String.ofList numeral))
  | header {header : List Char} {body : List (List Char)} {values : List Int} (hvalues : HasIntegers header values)
      (hsize : values.length < 2 ∨ ∃ value ∈ values.take 2, value < 0) :
    MapFault (header :: body) (.header (String.ofList header))
  | numeral {header line numeral : List Char} {body before : List (List Char)} {width height : Nat} {more : List Int}
      (hheader : HasIntegers header (width :: height :: more))
      (hline : FirstMiss (fun line => ∃ values, HasIntegers line values) (body.take height) before line)
      (hnumeral : Unread line numeral) :
    MapFault (header :: body) (.elevation (before.length + 2) (String.ofList numeral))
  | surplus {header : List Char} {body : List (List Char)} {width height : Nat} {more : List Int}
      {rows : List (List Int)} (hheader : HasIntegers header (width :: height :: more))
      (hrows : List.Forall₂ HasIntegers (body.take height) rows)
      (hsurplus : ∃ line ∈ body.drop height, ∃ c ∈ line, isBlank c = false) :
    MapFault (header :: body) (.rowCount height (height + 1))
  | rows {header : List Char} {body : List (List Char)} {width height : Nat} {more : List Int}
      {rows : List (List Int)} {fault : GridError} (hheader : HasIntegers header (width :: height :: more))
      (hrows : List.Forall₂ HasIntegers (body.take height) rows)
      (hblank : ∀ line ∈ body.drop height, ∀ c ∈ line, isBlank c = true)
      (hfault : Grid.RowFault width height (rows.map List.length) fault) : MapFault (header :: body) fault

private theorem exists_numeralWord?_iff {numeral : List Char} :
    (∃ w, numeralWord? numeral = some w) ↔ IsWord numeral := by
  simp only [numeralWord?_eq_some_iff, IsWord]
  constructor
  · rintro ⟨w, hw⟩
    exact ⟨w.toInt, hw, fits_toInt w⟩
  · rintro ⟨value, hvalue, hfits⟩
    obtain ⟨w, rfl⟩ := hfits.exists_toInt
    exact ⟨w, hvalue⟩

end Text

namespace Grid

open Text

/-! ### Lines that are not read -/

private theorem exists_readLine_eq_mapM (number : Nat) (line : List Char) : ∃ read : List Char → Except GridError Int64,
    readLine number line = (numerals line).mapM read ∧ (∀ numeral, (∃ word, read numeral = .ok word) ↔ IsWord numeral) ∧
      ∀ numeral, ¬IsWord numeral → read numeral = .error (.elevation number (String.ofList numeral)) := by
  refine ⟨_, rfl, ?_, ?_⟩
  · intro numeral
    rw [← exists_numeralWord?_iff]
    rcases numeralWord? numeral with _ | word <;> simp
  · intro numeral hnone
    rw [← exists_numeralWord?_iff, not_exists] at hnone
    simp only [Option.eq_none_iff_forall_ne_some.mpr hnone]

theorem readLine_eq_error_iff {number : Nat} {line : List Char} {fault : GridError} :
    readLine number line = .error fault ↔
      ∃ numeral, Unread line numeral ∧ fault = .elevation number (String.ofList numeral) := by
  obtain ⟨read, hread, hword, hfault⟩ := exists_readLine_eq_mapM number line
  rw [hread, mapM_eq_error_iff]
  simp only [hword]
  constructor
  · rintro ⟨before, numeral, hmiss, h⟩
    exact ⟨numeral, ⟨_, before, numerals_eq_iff.mp rfl, hmiss⟩,
      Except.error.inj (h.symm.trans (hfault numeral hmiss.not_at))⟩
  · rintro ⟨numeral, ⟨l, before, hl, hmiss⟩, rfl⟩
    rw [← numerals_eq_iff] at hl
    exact ⟨before, numeral, hl ▸ hmiss, hfault numeral hmiss.not_at⟩

private theorem exists_readLine_iff {number : Nat} {line : List Char} :
    (∃ row, readLine number line = .ok row) ↔ ∃ values, HasIntegers line values := by
  simp only [readLine_eq_ok_iff]
  constructor
  · rintro ⟨row, hrow⟩
    exact ⟨_, hrow⟩
  · rintro ⟨values, hvalues⟩
    obtain ⟨words, rfl⟩ := hvalues.exists_words
    exact ⟨words, hvalues⟩

private theorem readHeader_eq_error_iff_of_readLine {line : List Char} {words : List Int64} {fault : GridError}
    (h : readLine 1 line = .ok words) :
    readHeader line = .error fault ↔
      (words.length < 2 ∨ ∃ word ∈ words.take 2, word.toInt < 0) ∧ fault = .header (String.ofList line) := by
  rcases words with _ | ⟨width, _ | ⟨height, more⟩⟩
  · simp [readHeader, h, bind, Except.bind, eq_comm]
  · simp [readHeader, h, bind, Except.bind, eq_comm]
  · have hheader : readHeader line =
        if 0 ≤ width.toInt ∧ 0 ≤ height.toInt then .ok (width.toInt.toNat, height.toInt.toNat)
        else .error (.header (String.ofList line)) := by
      simp only [readHeader, h, bind, Except.bind]
    have hsize : ((width :: height :: more).length < 2 ∨ ∃ word ∈ (width :: height :: more).take 2, word.toInt < 0) ↔
        ¬(0 ≤ width.toInt ∧ 0 ≤ height.toInt) := by
      simp
      omega
    rw [hheader, hsize]
    split
    · next hpos => simp [hpos]
    · next hneg => simp [hneg, eq_comm]

theorem readHeader_eq_error_iff {line : List Char} {fault : GridError} :
    readHeader line = .error fault ↔
      (∃ numeral, Unread line numeral ∧ fault = .elevation 1 (String.ofList numeral)) ∨
        ∃ values, HasIntegers line values ∧ (values.length < 2 ∨ ∃ value ∈ values.take 2, value < 0) ∧
          fault = .header (String.ofList line) := by
  rw [← readLine_eq_error_iff]
  rcases hread : readLine 1 line with fault' | words
  · have hheader : readHeader line = .error fault' := by simp only [readHeader, hread, bind, Except.bind]
    rw [hheader, Except.error.injEq, Except.error.injEq]
    refine ⟨.inl, ?_⟩
    rintro (h | ⟨values, hvalues, -⟩)
    · exact h
    · obtain ⟨row, hrow⟩ := exists_readLine_iff.mpr ⟨values, hvalues⟩
      cases hread.symm.trans hrow
  · rw [readHeader_eq_error_iff_of_readLine hread]
    constructor
    · rintro ⟨hsize, rfl⟩
      refine .inr ⟨_, readLine_eq_ok_iff.mp hread, ?_, rfl⟩
      simpa [← List.map_take] using hsize
    · rintro (h | ⟨values, hvalues, hsize, rfl⟩)
      · cases h
      · obtain ⟨words', rfl⟩ := hvalues.exists_words
        obtain rfl : words = words' := Except.ok.inj (hread.symm.trans (readLine_eq_ok_iff.mpr hvalues))
        refine ⟨?_, rfl⟩
        simpa [← List.map_take] using hsize

theorem readRows_eq_error_iff {lines : List (List Char)} {fault : GridError} :
    readRows lines = .error fault ↔ ∃ before line numeral,
      FirstMiss (fun line => ∃ values, HasIntegers line values) lines before line ∧ Unread line numeral ∧
        fault = .elevation (before.length + 2) (String.ofList numeral) := by
  rw [readRows, mapM_eq_error_iff]
  simp only [exists_readLine_iff, readLine_eq_error_iff,
    firstMiss_zipIdx_iff (p := fun line => ∃ values, HasIntegers line values)]
  constructor
  · rintro ⟨_, _, ⟨before, line, hmiss, rfl, rfl⟩, numeral, hnumeral, rfl⟩
    exact ⟨before, line, numeral, hmiss, hnumeral, by rw [Nat.add_comm]⟩
  · rintro ⟨before, line, numeral, hmiss, hnumeral, rfl⟩
    exact ⟨_, _, ⟨before, line, hmiss, rfl, rfl⟩, numeral, hnumeral, by rw [Nat.add_comm]⟩

/-! ### Texts -/

private theorem map_length_toInt (words : List (List Int64)) :
    (words.map fun row => row.map Int64.toInt).map List.length = words.map List.length := by
  simp only [List.map_map, Function.comp_def, List.length_map]

private theorem mapFault_of_ofLines {lines : List (List Char)} {fault : GridError} (h : ofLines lines = .error fault) :
    MapFault lines fault := by
  match lines, h with
  | [], h =>
    cases h
    exact .noLine
  | header :: body, h =>
    rw [ofLines] at h
    rcases hheader : readHeader header with fault' | ⟨width, height⟩
    · rw [hheader] at h
      obtain rfl : fault' = fault := Except.error.inj h
      rcases readHeader_eq_error_iff.mp hheader with ⟨numeral, hnumeral, rfl⟩ | ⟨values, hvalues, hsize, rfl⟩
      · exact .headerNumeral hnumeral
      · exact .header hvalues hsize
    · obtain ⟨more, hvalues⟩ := readHeader_eq_ok_iff.mp hheader
      rcases hrows : readRows (body.take height) with fault' | words
      · simp only [hheader, hrows, bind, Except.bind] at h
        obtain rfl : fault' = fault := Except.error.inj h
        obtain ⟨before, line, numeral, hline, hnumeral, rfl⟩ := readRows_eq_error_iff.mp hrows
        exact .numeral hvalues hline hnumeral
      · simp only [hheader, hrows, bind, Except.bind] at h
        split at h
        · next hblank =>
          have hfault := ofRows_eq_error_iff.mp h
          rw [← map_length_toInt] at hfault
          exact .rows hvalues (readRows_eq_ok_iff.mp hrows) (by simpa using hblank) hfault
        · next hsurplus =>
          cases h
          exact .surplus hvalues (readRows_eq_ok_iff.mp hrows) (by simpa using hsurplus)

private theorem ofLines_eq_error_iff {lines : List (List Char)} {fault : GridError} :
    ofLines lines = .error fault ↔ MapFault lines fault := by
  constructor
  · exact mapFault_of_ofLines
  · intro h
    cases h with
    | noLine => rfl
    | headerNumeral hnumeral =>
      rw [ofLines, readHeader_eq_error_iff.mpr (.inl ⟨_, hnumeral, rfl⟩)]
      rfl
    | header hvalues hsize =>
      rw [ofLines, readHeader_eq_error_iff.mpr (.inr ⟨_, hvalues, hsize, rfl⟩)]
      rfl
    | numeral hheader hline hnumeral =>
      rw [ofLines, readHeader_eq_ok_iff.mpr ⟨_, hheader⟩]
      simp only [bind, Except.bind, readRows_eq_error_iff.mpr ⟨_, _, _, hline, hnumeral, rfl⟩]
    | surplus hheader hrows hsurplus =>
      obtain ⟨words, rfl⟩ := exists_words_of_forall₂ hrows
      rw [ofLines, readHeader_eq_ok_iff.mpr ⟨_, hheader⟩]
      simp only [bind, Except.bind, readRows_eq_ok_iff.mpr hrows]
      exact if_neg (by simpa using hsurplus)
    | rows hheader hrows hblank hfault =>
      obtain ⟨words, rfl⟩ := exists_words_of_forall₂ hrows
      rw [map_length_toInt] at hfault
      rw [ofLines, readHeader_eq_ok_iff.mpr ⟨_, hheader⟩]
      simp only [bind, Except.bind, readRows_eq_ok_iff.mpr hrows]
      rw [if_pos (by simpa using hblank)]
      exact ofRows_eq_error_iff.mpr hfault

/-- A text is not read as a grid exactly if its lines have a fault, the first of its order, and that is the fault that
is reported. -/
theorem parse_eq_error_iff (text : String) (fault : GridError) :
    parse text = .error fault ↔ ∃ lines, Lined text.toList lines ∧ MapFault lines fault := by
  rw [parse, ofLines_eq_error_iff]
  simp only [← lines_eq_iff, exists_eq_left']

/-- The numeral is at fault, although the width is zero and a row is missing. -/
example : parse "0 2\n1 x 99999999999999999999\n" = .error (.elevation 2 "99999999999999999999") := by decide

end Grid

end Downhill
