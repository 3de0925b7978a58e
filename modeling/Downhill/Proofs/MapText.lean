import Downhill.Proofs.Rows
import Downhill.Proofs.Tokens
import Mathlib.Data.List.Induction
import Mathlib.Data.Nat.Digits.Defs

/-!
# The format of a map

A text is a map if its first line starts with a width and a height, the next lines hold as many rows of as many
integers, and the lines after them are blank (`MapText`). The format is told by how a text is composed of lines, and a
line of numerals; a numeral has an integer if its digits are ASCII and the value fits a 64-bit word.

Exactly these texts are read as a grid, and the grid has the width, the height and the elevations that they hold
(`exists_parse_iff`).

* `numeralWord?_eq_some_iff` : the words that numerals stand for;
* `readLine_eq_ok_iff`, `readHeader_eq_ok_iff`, `readRows_eq_ok_iff` : what is read from lines;
* `parse_eq_ok_iff`          : the texts that are read as a given grid.
-/

namespace Downhill

namespace Text

/-! ### Integers -/

/-- The number that a run of ASCII digits stands for: each digit counts ten times what the next one does. -/
def decimal (digits : List Char) : Nat :=
  Nat.ofDigits 10 (digits.map fun c => c.toNat - '0'.toNat).reverse

/-- The numeral is in ASCII digits and has the given value. -/
def Denotes (numeral : List Char) (value : Int) : Prop :=
  ∃ digits : List Char, (∀ c ∈ digits, c.isDigit = true) ∧
    (numeral = digits ∧ value = decimal digits ∨ numeral = '-' :: digits ∧ value = -(decimal digits : Int))

/-- The value fits a signed 64-bit word. -/
def Fits (value : Int) : Prop :=
  -2 ^ 63 ≤ value ∧ value < 2 ^ 63

/-- The numerals of the line are all in ASCII digits and have the given values, which fit signed 64-bit words. -/
def HasIntegers (line : List Char) (values : List Int) : Prop :=
  ∃ numerals, Numbered line numerals ∧
    List.Forall₂ (fun numeral value => Denotes numeral value ∧ Fits value) numerals values

private theorem digitsValue_eq_decimal (digits : List Char) : digitsValue digits = decimal digits := by
  induction digits using List.reverseRecOn with
  | nil => rfl
  | append_singleton digits c ih =>
    have hlast : decimal (digits ++ [c]) = (c.toNat - '0'.toNat) + 10 * decimal digits := by
      rw [decimal, List.map_append, List.reverse_append]
      exact Nat.ofDigits_cons
    rw [hlast, ← ih, digitsValue, List.foldl_append]
    exact Nat.add_comm _ _

private theorem not_isDigit_minus : '-'.isDigit ≠ true := by decide

private theorem numeralValue?_eq_some_iff {numeral : List Char} {value : Int} :
    numeralValue? numeral = some value ↔ Denotes numeral value := by
  unfold numeralValue?
  constructor
  · intro h
    split at h
    · next digits =>
      obtain ⟨hdigits, hvalue⟩ := Option.ite_none_right_eq_some.mp h
      rw [digitsValue_eq_decimal] at hvalue
      exact ⟨digits, List.all_eq_true.mp hdigits, .inr ⟨rfl, (Option.some.inj hvalue).symm⟩⟩
    · obtain ⟨hdigits, hvalue⟩ := Option.ite_none_right_eq_some.mp h
      rw [digitsValue_eq_decimal] at hvalue
      exact ⟨numeral, List.all_eq_true.mp hdigits, .inl ⟨rfl, (Option.some.inj hvalue).symm⟩⟩
  · rintro ⟨digits, hdigits, ⟨rfl, rfl⟩ | ⟨rfl, rfl⟩⟩
    · split
      · exact absurd (hdigits '-' List.mem_cons_self) not_isDigit_minus
      · rw [if_pos (List.all_eq_true.mpr hdigits), digitsValue_eq_decimal]
    · show (if digits.all Char.isDigit = true then some (-(digitsValue digits : Int)) else none) = _
      rw [if_pos (List.all_eq_true.mpr hdigits), digitsValue_eq_decimal]

private theorem word?_eq_some_iff {value : Int} {w : Int64} : word? value = some w ↔ w.toInt = value := by
  constructor
  · exact toInt_of_word?
  · rintro rfl
    rw [word?, if_pos ⟨Int64.minValue_le_toInt w, Int64.toInt_le w⟩, Int64.ofInt_toInt]

theorem numeralWord?_eq_some_iff {numeral : List Char} {w : Int64} :
    numeralWord? numeral = some w ↔ Denotes numeral w.toInt := by
  simp only [numeralWord?, Option.bind_eq_some_iff, word?_eq_some_iff, numeralValue?_eq_some_iff,
    eq_comm (a := w.toInt), exists_eq_right]

theorem fits_toInt (w : Int64) : Fits w.toInt :=
  ⟨Int64.le_toInt w, Int64.toInt_lt w⟩

theorem Fits.exists_toInt {value : Int} (h : Fits value) : ∃ w : Int64, w.toInt = value :=
  ⟨Int64.ofInt value, Int64.toInt_ofInt_of_le h.1 h.2⟩

private theorem exists_map_eq {α β γ : Type} {R : α → β → Prop} {f : γ → β} (hf : ∀ a b, R a b → ∃ c, f c = b)
    {l : List α} {r : List β} (h : List.Forall₂ R l r) : ∃ s : List γ, s.map f = r := by
  induction h with
  | nil => exact ⟨[], rfl⟩
  | cons hab _ ih =>
    obtain ⟨c, rfl⟩ := hf _ _ hab
    obtain ⟨s, rfl⟩ := ih
    exact ⟨c :: s, rfl⟩

/-- The values of integers are those of words. -/
theorem HasIntegers.exists_words {line : List Char} {values : List Int} (h : HasIntegers line values) :
    ∃ words : List Int64, words.map Int64.toInt = values := by
  obtain ⟨numerals, -, hvalues⟩ := h
  exact exists_map_eq (fun _ _ hvalue => hvalue.2.exists_toInt) hvalues

theorem exists_words_of_forall₂ {lines : List (List Char)} {rows : List (List Int)}
    (h : List.Forall₂ HasIntegers lines rows) :
    ∃ words : List (List Int64), (words.map fun row => row.map Int64.toInt) = rows :=
  exists_map_eq (fun _ _ hrow => hrow.exists_words) h

/-- A text in the format of a map, with the width, height and rows that it holds. -/
structure MapText (text : List Char) (width height : Nat) (rows : List (List Int)) : Prop where
  width_pos : 1 ≤ width
  height_pos : 1 ≤ height
  size_le : width * height ≤ 2 ^ 64 - 1
  length_rows : rows.length = height
  length_row : ∀ row ∈ rows, row.length = width
  composed : ∃ header body blank more, Lined text (header :: (body ++ blank)) ∧
    HasIntegers header (width :: height :: more) ∧ List.Forall₂ HasIntegers body rows ∧
    ∀ line ∈ blank, ∀ c ∈ line, isBlank c = true

end Text

namespace Grid

open Text

/-! ### What is read from lines -/

theorem readLine_eq_ok_iff {number : Nat} {line : List Char} {row : List Int64} :
    readLine number line = .ok row ↔ HasIntegers line (row.map Int64.toInt) := by
  have hnumeral : readLine number line = .ok row ↔
      List.Forall₂ (fun numeral word => numeralWord? numeral = some word) (numerals line) row := by
    rw [readLine, mapM_eq_ok_iff]
    apply iff_of_eq
    congr 1
    funext numeral word
    rcases numeralWord? numeral with _ | w <;> simp
  rw [hnumeral]
  simp only [HasIntegers, ← numerals_eq_iff, exists_eq_left', List.forall₂_map_right_iff, numeralWord?_eq_some_iff,
    fits_toInt, and_true]

theorem readHeader_eq_ok_iff {line : List Char} {width height : Nat} :
    readHeader line = .ok (width, height) ↔ ∃ more, HasIntegers line (width :: height :: more) := by
  constructor
  · intro hok
    rcases hread : readLine 1 line with fault | (_ | ⟨w, _ | ⟨h, more⟩⟩) <;>
      simp only [readHeader, hread, bind, Except.bind, reduceCtorEq] at hok
    split at hok
    · next hpos =>
      cases hok
      rw [Int.toNat_of_nonneg hpos.1, Int.toNat_of_nonneg hpos.2]
      exact ⟨more.map Int64.toInt, readLine_eq_ok_iff.mp hread⟩
    · cases hok
  · rintro ⟨more, hvalues⟩
    obtain ⟨words, hwords⟩ := hvalues.exists_words
    rw [← hwords] at hvalues
    obtain ⟨w, rest, rfl, hw, hrest⟩ := List.map_eq_cons_iff.mp hwords
    obtain ⟨h, rest, rfl, hh, -⟩ := List.map_eq_cons_iff.mp hrest
    simp only [readHeader, readLine_eq_ok_iff.mpr hvalues, bind, Except.bind]
    rw [hw, hh, if_pos ⟨Int.natCast_nonneg width, Int.natCast_nonneg height⟩]
    rfl

theorem readRows_eq_ok_iff {lines : List (List Char)} {rows : List (List Int64)} :
    readRows lines = .ok rows ↔ List.Forall₂ HasIntegers lines (rows.map fun row => row.map Int64.toInt) := by
  rw [readRows, mapM_eq_ok_iff]
  simp only [readLine_eq_ok_iff]
  rw [List.forall₂_map_right_iff]
  conv_rhs => rw [← List.zipIdx_map_fst 2 lines, List.forall₂_map_left_iff]

/-! ### Texts -/

variable {text : String}

/-- A text is read as a grid exactly if it is a map with the size and the rows of the grid. -/
theorem parse_eq_ok_iff {g : Grid} :
    parse text = .ok g ↔ MapText text.toList g.width g.height (g.rows.map fun row => row.map Int64.toInt) := by
  rw [parse, ofLines_eq_ok_iff]
  simp only [readHeader_eq_ok_iff, readRows_eq_ok_iff, lines_eq_iff]
  constructor
  · rintro ⟨header, body, hlines, ⟨more, hheader⟩, hrows, hblank⟩
    refine ⟨g.width_pos, g.height_pos, Nat.le_sub_one_of_lt g.addressable, ?_, ?_, ?_⟩
    · rw [List.length_map, length_rows]
    · intro row hrow
      obtain ⟨words, hwords, rfl⟩ := List.mem_map.mp hrow
      rw [List.length_map, length_of_mem_rows hwords]
    · refine ⟨header, body.take g.height, body.drop g.height, more, ?_, hheader, hrows, hblank⟩
      rwa [List.take_append_drop]
  · intro h
    obtain ⟨header, body, blank, more, hlines, hheader, hrows, hblank⟩ := h.composed
    have hlength : body.length = g.height := hrows.length_eq.trans h.length_rows
    refine ⟨header, body ++ blank, hlines, ⟨more, hheader⟩, ?_, ?_⟩
    · rwa [List.take_left' hlength]
    · rwa [List.drop_left' hlength]

/-- A text in the format of a map is read as a grid of the size and with the rows that it holds. -/
private theorem exists_parse_of_mapText {width height : Nat} {rows : List (List Int)}
    (h : MapText text.toList width height rows) :
    ∃ g, parse text = .ok g ∧ g.width = width ∧ g.height = height ∧
      (g.rows.map fun row => row.map Int64.toInt) = rows := by
  obtain ⟨header, body, blank, more, -, -, hrows, -⟩ := h.composed
  obtain ⟨words, rfl⟩ := exists_words_of_forall₂ hrows
  have hlength : ∀ row ∈ words, row.length = width := by
    intro row hrow
    simpa using h.length_row _ (List.mem_map_of_mem hrow)
  obtain ⟨g, hg⟩ := exists_ofRows_eq_ok_iff.mpr ⟨h.width_pos, h.height_pos, Nat.lt_of_le_sub_one (by decide) h.size_le,
    by simpa using h.length_rows, hlength⟩
  obtain ⟨rfl, rfl, rfl⟩ := ofRows_eq_ok_iff.mp hg
  exact ⟨g, parse_eq_ok_iff.mpr h, rfl, rfl, rfl⟩

/-- Exactly the texts in the format of a map are read as a grid, and the grid has the width and the height that the
text holds, and in column `x` of row `y` the `x`-th integer of its line `y + 2`. -/
theorem exists_parse_iff (text : String) :
    ((∃ g, parse text = .ok g) ↔ ∃ width height rows, MapText text.toList width height rows) ∧
      ∀ g width height rows, parse text = .ok g → MapText text.toList width height rows →
        g.width = width ∧ g.height = height ∧
          ∀ x y, (g.elevation? x y).map Int64.toInt = rows[y]?.bind fun row => row[x]? := by
  constructor
  · constructor
    · rintro ⟨g, hg⟩
      exact ⟨_, _, _, parse_eq_ok_iff.mp hg⟩
    · rintro ⟨width, height, rows, h⟩
      obtain ⟨g, hg, -⟩ := exists_parse_of_mapText h
      exact ⟨g, hg⟩
  · intro g width height rows hg h
    obtain ⟨g', hg', rfl, rfl, rfl⟩ := exists_parse_of_mapText h
    obtain rfl : g = g' := Except.ok.inj (hg.symm.trans hg')
    refine ⟨rfl, rfl, ?_⟩
    intro x y
    rw [← getElem?_rows, List.getElem?_map]
    rcases g.rows[y]? with _ | row
    · rfl
    · exact (List.getElem?_map ..).symm

end Grid

end Downhill
