import Downhill.Text.DecimalDigit

/-!
# Numerals in a line

A line is read for its numerals and nothing else: a numeral is a maximal run of decimal digits, of whatever script,
with the minus sign directly before it if there is one. What stands between numerals does not matter. Only a numeral
in ASCII digits whose value fits a signed 64-bit word stands for an integer.
-/

namespace Downhill.Text

/-- The numerals of a tail of a line. `run` is the run of digits that starts the tail, kept apart because the
character before it may still belong to it. -/
structure Numerals where
  run : List Char
  closed : List (List Char)

namespace Numerals

/-- Every numeral, the open run being one if it has a digit. -/
def toList (s : Numerals) : List (List Char) :=
  if s.run = [] then s.closed else s.run :: s.closed

/-- Extends the tail by the character before it. -/
def pushFront (c : Char) (s : Numerals) : Numerals :=
  if isDecimalDigit c then ⟨c :: s.run, s.closed⟩
  else if c = '-' ∧ s.run ≠ [] then ⟨[], ('-' :: s.run) :: s.closed⟩
  else ⟨[], s.toList⟩

end Numerals

/-- The numerals of a line, from left to right. -/
def numerals (line : List Char) : List (List Char) :=
  (line.foldr Numerals.pushFront ⟨[], []⟩).toList

/-- The number that a run of ASCII digits denotes. -/
def digitsValue (digits : List Char) : Nat :=
  digits.foldl (fun value c => 10 * value + (c.toNat - '0'.toNat)) 0

/-- The integer that a numeral denotes; `none` if it has a digit of another script. -/
def numeralValue? : List Char → Option Int
  | '-' :: digits => if digits.all Char.isDigit then some (-(digitsValue digits : Int)) else none
  | digits => if digits.all Char.isDigit then some (digitsValue digits : Int) else none

/-- The word with the given value, if one has it. -/
def word? (value : Int) : Option Int64 :=
  if Int64.minValue.toInt ≤ value ∧ value ≤ Int64.maxValue.toInt then some (Int64.ofInt value) else none

/-- The signed 64-bit word that a numeral denotes, if it denotes one. -/
def numeralWord? (numeral : List Char) : Option Int64 :=
  (numeralValue? numeral).bind word?

@[simp] theorem numerals_nil : numerals [] = [] := rfl

theorem toInt_of_word? {value : Int} {w : Int64} (h : word? value = some w) : w.toInt = value := by
  simp only [word?, Option.ite_none_right_eq_some, Option.some.injEq] at h
  obtain ⟨hv, rfl⟩ := h
  exact Int64.toInt_ofInt_of_le hv.1 (Int.lt_add_one_of_le hv.2)

end Downhill.Text
