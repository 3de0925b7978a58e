import Downhill.Text.GraphemeExtend
import Downhill.Text.Unprintable

/-!
# Quoted text

Text from outside is shown between double quotes, on one line and with every character told apart: the quote and
the backslash are escaped, tab, newline, carriage return and NUL have letters of their own, and a character that has
no visible form, or would be drawn on the one before it, is shown as its code point.
-/

namespace Downhill.Text

/-- The lower-case hexadecimal digits of a code point, without leading zeros. -/
def hexDigits (n : Nat) : List Char :=
  Nat.toDigits 16 n

/-- How a character is shown between quotes. -/
def quoteChar (c : Char) : List Char :=
  match c with
  | '"' => ['\\', '"']
  | '\\' => ['\\', '\\']
  | '\t' => ['\\', 't']
  | '\n' => ['\\', 'n']
  | '\r' => ['\\', 'r']
  | '\x00' => ['\\', '0']
  | c => if isExtender c || isUnprintable c then ['\\', 'u', '{'] ++ hexDigits c.toNat ++ ['}'] else [c]

/-- A text between double quotes. -/
def quoted (text : String) : String :=
  String.ofList ('"' :: text.toList.flatMap quoteChar ++ ['"'])

end Downhill.Text
