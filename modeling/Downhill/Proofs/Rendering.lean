import Downhill.Grid.Parse
import Downhill.Proofs.Numerals
import Mathlib.Algebra.GroupWithZero.Nat
import Mathlib.Data.List.Forall2

/-!
# Texts of maps

The rows of a map can be written in many ways. An integer is written in ASCII digits, with any zeros in front; what
stands around the integers of a line is of no account as long as it neither has a digit nor makes a sign out of its
last character nor lets two integers run together; each line ends in either way. All these texts are read as the same
rows (`parse_eq_ofRows`).

* `numerals_text`   : the integers of a written line are its numerals;
* `forall₂_lines`   : the lines of a text are those laid out in it, but for a carriage return at their end;
* `parse_eq_ofRows` : a text of rows is read as the rows.
-/

namespace Downhill

namespace Text

/-! ### Written integers -/

/-- An integer as it is written: with or without a minus sign, with zeros in front. -/
structure Spelling where
  negative : Bool
  zeros : Nat
  magnitude : Nat

namespace Spelling

def digits (s : Spelling) : List Char :=
  List.replicate s.zeros '0' ++ Nat.toDigits 10 s.magnitude

def text (s : Spelling) : List Char :=
  if s.negative then '-' :: s.digits else s.digits

def value (s : Spelling) : Int :=
  if s.negative then -(s.magnitude : Int) else s.magnitude

private theorem digits_ne_nil (s : Spelling) : s.digits ≠ [] := by
  simp [digits, Nat.toDigits_ne_nil]

private theorem isDigit_of_mem_digits (s : Spelling) : ∀ c ∈ s.digits, c.isDigit = true := by
  intro c hc
  rcases List.mem_append.mp hc with hc | hc
  · rw [List.eq_of_mem_replicate hc]
    decide
  · exact Nat.isDigit_of_mem_toDigits (by omega) (by omega) hc

private theorem digitsValue_digits (s : Spelling) : digitsValue s.digits = s.magnitude := by
  show Nat.ofDigitChars 10 s.digits 0 = _
  rw [digits, Nat.ofDigitChars_append, Nat.ofDigitChars_replicate_zero, Nat.mul_zero, Nat.ofDigitChars_ten_toDigits]

private theorem numeralValue?_text (s : Spelling) : numeralValue? s.text = some s.value := by
  have hall : s.digits.all Char.isDigit = true := List.all_eq_true.mpr s.isDigit_of_mem_digits
  unfold text value
  by_cases hneg : s.negative = true
  · rw [if_pos hneg, if_pos hneg]
    simp only [numeralValue?, hall, if_true, digitsValue_digits]
  · rw [if_neg hneg, if_neg hneg]
    unfold numeralValue?
    split
    · next rest h =>
      -- a run of digits does not start with a sign
      have := s.isDigit_of_mem_digits '-' (by rw [h]; exact List.mem_cons_self)
      contradiction
    · rw [hall, if_pos rfl, digitsValue_digits]

private theorem numeralWord?_text {s : Spelling} {w : Int64} (h : s.value = w.toInt) :
    numeralWord? s.text = some w := by
  rw [numeralWord?, numeralValue?_text, Option.bind_some, word?, h,
    if_pos ⟨Int64.minValue_le_toInt w, Int64.toInt_le w⟩, Int64.ofInt_toInt]

end Spelling

/-! ### Written lines -/

/-- A written integer and what stands between it and the integer before. -/
structure Item where
  before : List Char
  spelling : Spelling

def Item.text (item : Item) : List Char :=
  item.before ++ item.spelling.text

/-- A line with written integers. -/
structure WrittenLine where
  items : List Item
  /-- What stands after the last integer. -/
  ending : List Char
  filler_before : ∀ item ∈ items, Filler item.before ∧ '\n' ∉ item.before
  filler_ending : Filler ending ∧ '\n' ∉ ending
  /-- No minus sign stands right before an integer that is written without one. -/
  unsigned : ∀ item ∈ items, item.spelling.negative = true ∨ item.before.getLast? ≠ some '-'
  /-- Between two integers stands something, unless the second is written with a minus sign. -/
  apart : ∀ item ∈ items.tail, item.spelling.negative = true ∨ item.before ≠ []

namespace WrittenLine

def text (line : WrittenLine) : List Char :=
  line.items.flatMap Item.text ++ line.ending

def values (line : WrittenLine) : List Int :=
  line.items.map fun item => item.spelling.value

end WrittenLine

private theorem breaks_item {item : Item} (hfiller : Filler item.before)
    (hapart : item.spelling.negative = true ∨ item.before ≠ []) (rest : List Char) : Breaks (item.text ++ rest) := by
  rw [Item.text, List.append_assoc]
  by_cases hne : item.before = []
  · rw [hne, List.nil_append, Spelling.text, if_pos (hapart.resolve_right (not_not.mpr hne))]
    intro c hc
    obtain rfl : '-' = c := Option.some.inj hc
    decide
  · exact hfiller.breaks_append hne _

private theorem numerals_item_append {item : Item} (hfiller : Filler item.before)
    (hunsigned : item.spelling.negative = true ∨ item.before.getLast? ≠ some '-') {rest : List Char}
    (hrest : Breaks rest) : numerals (item.text ++ rest) = item.spelling.text :: numerals rest := by
  have hdigits : ∀ c ∈ item.spelling.digits, isDecimalDigit c = true :=
    fun c hc => isDecimalDigit_of_isDigit (item.spelling.isDigit_of_mem_digits c hc)
  have hne := item.spelling.digits_ne_nil
  rw [Item.text, List.append_assoc, Spelling.text]
  by_cases hneg : item.spelling.negative = true
  · rw [if_pos hneg, List.cons_append, numerals_filler_append hfiller, numerals_minus_append hne hdigits hrest]
    right
    intro c hc
    obtain rfl : '-' = c := Option.some.inj hc
    decide
  · rw [if_neg hneg, numerals_filler_append hfiller (.inl (hunsigned.resolve_left hneg)),
      numerals_digits_append hne hdigits hrest]

private theorem numerals_items {items : List Item} {ending : List Char}
    (hfiller : ∀ item ∈ items, Filler item.before) (hending : Filler ending)
    (hunsigned : ∀ item ∈ items, item.spelling.negative = true ∨ item.before.getLast? ≠ some '-')
    (hapart : ∀ item ∈ items.tail, item.spelling.negative = true ∨ item.before ≠ []) :
    numerals (items.flatMap Item.text ++ ending) = items.map fun item => item.spelling.text := by
  induction items with
  | nil =>
    have hnone := numerals_append_filler [] hending
    exact hnone
  | cons item items ih =>
    obtain ⟨hitem, hfiller⟩ := List.forall_mem_cons.mp hfiller
    obtain ⟨hsign, hunsigned⟩ := List.forall_mem_cons.mp hunsigned
    have hrest : Breaks (items.flatMap Item.text ++ ending) := by
      cases items with
      | nil => exact hending.breaks
      | cons next items =>
        rw [List.flatMap_cons, List.append_assoc]
        exact breaks_item (hfiller next List.mem_cons_self) (hapart next List.mem_cons_self) _
    rw [List.flatMap_cons, List.append_assoc, numerals_item_append hitem hsign hrest, List.map_cons,
      ih hfiller hunsigned fun item hmem => hapart item (List.mem_of_mem_tail hmem)]

/-- The numerals of a written line are its integers as they are written. -/
theorem numerals_text (line : WrittenLine) : numerals line.text = line.items.map fun item => item.spelling.text :=
  numerals_items (fun item hmem => (line.filler_before item hmem).1) line.filler_ending.1 line.unsigned line.apart

theorem newline_not_mem_text (line : WrittenLine) : '\n' ∉ line.text := by
  intro hmem
  rcases List.mem_append.mp hmem with hmem | hmem
  · obtain ⟨item, hitem, hmem⟩ := List.mem_flatMap.mp hmem
    rcases List.mem_append.mp hmem with hmem | hmem
    · exact (line.filler_before item hitem).2 hmem
    · unfold Spelling.text at hmem
      split at hmem
      · have := item.spelling.isDigit_of_mem_digits '\n' (by simpa using hmem)
        contradiction
      · have := item.spelling.isDigit_of_mem_digits '\n' hmem
        contradiction
  · exact line.filler_ending.2 hmem

/-! ### Texts -/

/-- A text holds the given lines: each ends in a newline, with or without a carriage return before it, but the last
line may lack its end if it is not empty. -/
inductive Laid : List (List Char) → List Char → Prop
  | nil : Laid [] []
  | newline {line : List Char} {lines : List (List Char)} {text : List Char} (h : Laid lines text) :
    Laid (line :: lines) (line ++ '\n' :: text)
  | returnNewline {line : List Char} {lines : List (List Char)} {text : List Char} (h : Laid lines text) :
    Laid (line :: lines) (line ++ '\r' :: '\n' :: text)
  | last {line : List Char} (h : line ≠ []) : Laid [line] line

/-- A line as it is read: a carriage return at its end may be taken for a part of the line's end. -/
def ReadAs (line read : List Char) : Prop :=
  read = line ∨ read ++ ['\r'] = line

private theorem readAs_dropReturn (line : List Char) : ReadAs line (dropReturn line) := by
  unfold dropReturn
  split
  · next h => exact .inr (List.dropLast_append_getLast? '\r' h)
  · exact .inl rfl

theorem forall₂_lines {written : List (List Char)} {text : List Char} (h : Laid written text)
    (hline : ∀ line ∈ written, '\n' ∉ line) : List.Forall₂ ReadAs written (lines text) := by
  induction h with
  | nil => exact .nil
  | newline _ ih =>
    obtain ⟨hfirst, hrest⟩ := List.forall_mem_cons.mp hline
    rw [lines_append_newline hfirst]
    exact .cons (readAs_dropReturn _) (ih hrest)
  | @returnNewline line written text _ ih =>
    obtain ⟨hfirst, hrest⟩ := List.forall_mem_cons.mp hline
    have hreturn : '\n' ∉ line ++ ['\r'] := by simpa using hfirst
    rw [show line ++ '\r' :: '\n' :: text = (line ++ ['\r']) ++ '\n' :: text by simp, lines_append_newline hreturn]
    refine .cons (.inl ?_) (ih hrest)
    simp [dropReturn]
  | last hne =>
    rw [lines_of_not_mem (hline _ List.mem_cons_self), if_neg hne]
    exact .cons (.inl rfl) .nil

/-- A carriage return at the end of a line is no part of a numeral. -/
private theorem ReadAs.numerals_eq {line read : List Char} (h : ReadAs line read) : numerals read = numerals line := by
  rcases h with rfl | rfl
  · rfl
  · exact (numerals_append_filler read (by simp [Filler]; decide)).symm

end Text

/-! ### Reading rows -/

namespace Grid

open Text

private theorem readLine_of_numerals {line : List Char} {items : List Item} {row : List Int64}
    (hnumerals : numerals line = items.map fun item => item.spelling.text)
    (hvalues : (items.map fun item => item.spelling.value) = row.map Int64.toInt) (number : Nat) :
    readLine number line = .ok row := by
  unfold readLine
  rw [hnumerals]
  clear hnumerals
  induction items generalizing row with
  | nil =>
    rw [List.map_nil, eq_comm, List.map_eq_nil_iff] at hvalues
    rw [hvalues]
    rfl
  | cons item items ih =>
    obtain ⟨w, row, rfl⟩ : ∃ w row', row = w :: row' := List.exists_cons_of_ne_nil (by rintro rfl; simp at hvalues)
    rw [List.map_cons, List.map_cons, List.cons.injEq] at hvalues
    rw [List.map_cons, List.mapM_cons, ih hvalues.2, Spelling.numeralWord?_text hvalues.1]
    rfl

private theorem readLine_of_readAs {line : WrittenLine} {read : List Char} (h : ReadAs line.text read)
    {row : List Int64} (hvalues : line.values = row.map Int64.toInt) (number : Nat) : readLine number read = .ok row :=
  readLine_of_numerals (h.numerals_eq.trans (numerals_text line)) hvalues number

theorem readHeader_of_readAs {line : WrittenLine} {read : List Char} (h : ReadAs line.text read) {width height : Nat}
    (hw : width < 2 ^ 63) (hh : height < 2 ^ 63) {more : List Int64}
    (hvalues : line.values = (width : Int) :: (height : Int) :: more.map Int64.toInt) :
    readHeader read = .ok (width, height) := by
  have hword : ∀ n : Nat, n < 2 ^ 63 → (Int64.ofNat n).toInt = n := fun n hn => Int64.toInt_ofNat_of_lt hn
  have hread : readLine 1 read = .ok (Int64.ofNat width :: Int64.ofNat height :: more) := by
    apply readLine_of_readAs h
    rw [hvalues, List.map_cons, List.map_cons, hword _ hw, hword _ hh]
  unfold readHeader
  rw [hread]
  show (if 0 ≤ (Int64.ofNat width).toInt ∧ 0 ≤ (Int64.ofNat height).toInt then _ else _) = _
  rw [hword _ hw, hword _ hh, if_pos ⟨Int.natCast_nonneg width, Int.natCast_nonneg height⟩]
  rfl

theorem readRows_of_forall₂ {written : List WrittenLine} {read : List (List Char)}
    (h : List.Forall₂ ReadAs (written.map WrittenLine.text) read) {rows : List (List Int64)}
    (hvalues : written.map WrittenLine.values = rows.map fun row => row.map Int64.toInt) :
    readRows read = .ok rows := by
  unfold readRows
  generalize 2 = number
  induction written generalizing read rows number with
  | nil =>
    rw [List.map_nil, List.forall₂_nil_left_iff] at h
    rw [List.map_nil, eq_comm, List.map_eq_nil_iff] at hvalues
    rw [h, hvalues]
    rfl
  | cons line written ih =>
    rw [List.map_cons, List.forall₂_cons_left_iff] at h
    obtain ⟨first, rest, hfirst, hrest, rfl⟩ := h
    obtain ⟨row, rows, rfl⟩ : ∃ row rows', rows = row :: rows' :=
      List.exists_cons_of_ne_nil (by rintro rfl; simp at hvalues)
    rw [List.map_cons, List.map_cons, List.cons.injEq] at hvalues
    rw [List.zipIdx_cons, List.mapM_cons, ih hrest hvalues.2, readLine_of_readAs hfirst hvalues.1]
    rfl

/-- Lines that are read as a header, as rows and as blank lines after the last row. -/
private theorem ofLines_eq_ofRows {header : List Char} {width height : Nat}
    (hheader : readHeader header = .ok (width, height))
    {body : List (List Char)} {rows : List (List Int64)} (hbody : readRows body = .ok rows)
    (hlength : body.length ≤ height) {blank : List (List Char)} (hfull : blank ≠ [] → body.length = height)
    (hblank : ∀ line ∈ blank, line.all isBlank = true) :
    ofLines (header :: (body ++ blank)) = ofRows width height rows := by
  have hsplit : (body ++ blank).take height = body ∧ (body ++ blank).drop height = blank := by
    by_cases hnil : blank = []
    · rw [hnil, List.append_nil, List.take_of_length_le hlength, List.drop_of_length_le hlength]
      exact ⟨rfl, rfl⟩
    · exact ⟨List.take_left' (hfull hnil), List.drop_left' (hfull hnil)⟩
  have hall : blank.all (fun line => line.all isBlank) = true := List.all_eq_true.mpr hblank
  rw [ofLines, hheader]
  show (readRows ((body ++ blank).take height)).bind _ = _
  rw [hsplit.1, hbody]
  show (if ((body ++ blank).drop height).all _ = true then _ else _) = _
  rw [hsplit.2, if_pos hall]

private theorem exists_forall₂_of_append {α β : Type} {R : α → β → Prop} {l l' : List α} {m : List β}
    (h : List.Forall₂ R (l ++ l') m) : ∃ k k', List.Forall₂ R l k ∧ List.Forall₂ R l' k' ∧ m = k ++ k' := by
  refine ⟨m.take l.length, m.drop l.length, ?_, ?_, (List.take_append_drop _ _).symm⟩
  · simpa using List.forall₂_take l.length h
  · simpa using List.forall₂_drop l.length h

/-- A text that spells a width, a height and rows, no more than the height says, is read as these rows make a grid or
fail to. Blank lines may follow the last row. -/
theorem parse_eq_ofRows {width height : Nat} (hw : width < 2 ^ 63) (hh : height < 2 ^ 63) {rows : List (List Int64)}
    (hrows : rows.length ≤ height) {header : WrittenLine} {more : List Int64}
    (hheader : header.values = (width : Int) :: (height : Int) :: more.map Int64.toInt) {body : List WrittenLine}
    (hbody : body.map WrittenLine.values = rows.map fun row => row.map Int64.toInt) {blank : List (List Char)}
    (hblank : ∀ line ∈ blank, '\n' ∉ line ∧ ∀ c ∈ line, isBlank c = true)
    (hfull : blank ≠ [] → rows.length = height) {text : String}
    (htext : Laid (header.text :: (body.map WrittenLine.text ++ blank)) text.toList) :
    parse text = ofRows width height rows := by
  have hread := forall₂_lines htext (by
    intro line hline
    rw [List.mem_cons, List.mem_append, List.mem_map] at hline
    rcases hline with rfl | ⟨line, _, rfl⟩ | hline
    · exact newline_not_mem_text header
    · exact newline_not_mem_text line
    · exact (hblank line hline).1)
  rw [List.forall₂_cons_left_iff] at hread
  obtain ⟨first, rest, hfirst, hrest, hlines⟩ := hread
  obtain ⟨bodyRead, blankRead, hbodyRead, hblankRead, rfl⟩ := exists_forall₂_of_append hrest
  have hbodyLength : bodyRead.length = rows.length := by
    have hlength := congrArg List.length hbody
    rw [List.length_map, List.length_map] at hlength
    rw [← hbodyRead.length_eq, List.length_map, hlength]
  rw [parse, hlines]
  apply ofLines_eq_ofRows (readHeader_of_readAs hfirst hw hh hheader) (readRows_of_forall₂ hbodyRead hbody)
  · omega
  · intro hne
    rw [hbodyLength]
    apply hfull
    rintro rfl
    exact hne (List.forall₂_nil_left_iff.mp hblankRead)
  · intro read hmem
    obtain ⟨line, hline, hreadAs⟩ : ∃ line ∈ blank, ReadAs line read := by
      obtain ⟨i, hi, rfl⟩ := List.getElem_of_mem hmem
      have hlt : i < blank.length := by rwa [hblankRead.length_eq]
      exact ⟨blank.get ⟨i, hlt⟩, List.getElem_mem _, hblankRead.get hlt hi⟩
    rw [List.all_eq_true]
    intro c hc
    apply (hblank line hline).2
    rcases hreadAs with rfl | rfl
    · exact hc
    · exact List.mem_append_left _ hc

/-- Signs with nothing before them, zeros in front, both line ends, and blank lines of which the last is open. -/
theorem parse_eq_ofRows_signs :
    let header : WrittenLine :=
      ⟨[⟨[], false, 0, 2⟩, ⟨['x'], false, 1, 2⟩, ⟨[' '], false, 0, 7⟩], [], by decide, by decide, by decide, by decide⟩
    let first : WrittenLine :=
      ⟨[⟨[':'], true, 2, 5⟩, ⟨[' '], false, 0, 7⟩], ['.'], by decide, by decide, by decide, by decide⟩
    let second : WrittenLine :=
      ⟨[⟨['-'], true, 0, 0⟩, ⟨[], true, 0, 9223372036854775808⟩], [], by decide, by decide, by decide, by decide⟩
    let blank := [[' ', '\t'], ['\u3000']]
    let rows := [[-5, 7], [0, Int64.minValue]]
    let text := "2x02 7\r\n:-005 7.\n--0-9223372036854775808\n \t\r\n\u3000"
    header.values = ((2 : Nat) : Int) :: ((2 : Nat) : Int) :: [7].map Int64.toInt ∧
      [first, second].map WrittenLine.values = rows.map (fun row => row.map Int64.toInt) ∧
      (∀ line ∈ blank, '\n' ∉ line ∧ ∀ c ∈ line, isBlank c = true) ∧ (blank ≠ [] → rows.length = 2) ∧
      Laid (header.text :: ([first, second].map WrittenLine.text ++ blank)) text.toList ∧
      parse text = ofRows 2 2 rows := by
  intro header first second blank rows text
  have hheader : header.values = ((2 : Nat) : Int) :: ((2 : Nat) : Int) :: [7].map Int64.toInt := by decide
  have hbody : [first, second].map WrittenLine.values = rows.map fun row => row.map Int64.toInt := by decide
  have hblank : ∀ line ∈ blank, '\n' ∉ line ∧ ∀ c ∈ line, isBlank c = true := by
    simp only [blank, List.forall_mem_cons, List.not_mem_nil, false_imp_iff, implies_true, and_true]
    decide
  have hfull : blank ≠ [] → rows.length = 2 := fun _ => rfl
  have hchars : text.toList = header.text ++ '\r' :: '\n' :: (first.text ++ '\n' :: (second.text ++ '\n' ::
      ([' ', '\t'] ++ '\r' :: '\n' :: ['\u3000']))) := by decide
  have htext : Laid (header.text :: ([first, second].map WrittenLine.text ++ blank)) text.toList := by
    rw [hchars]
    exact .returnNewline (.newline (.newline (.returnNewline (.last (List.cons_ne_nil '\u3000' [])))))
  exact ⟨hheader, hbody, hblank, hfull, htext,
    parse_eq_ofRows (by decide) (by decide) (by decide) hheader hbody hblank hfull htext⟩

end Grid

end Downhill
