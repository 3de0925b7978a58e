import Downhill.Grid.OfRows
import Downhill.Text.Blank
import Downhill.Text.Line
import Downhill.Text.Numeral

/-!
# Grids from text

The text of a map starts with a line that holds the width and the height; each of the next `height` lines holds the
elevations of a row. Only the numerals of these lines count. The lines after them must be blank.

A map is read from its first line to its last, so a fault in an earlier line is reported rather than one in a later
line; whether the rows make a grid is asked last.
-/

namespace Downhill.Grid

open Text

/-- The integers of a line, unless one of its numerals is not a 64-bit integer. -/
def readLine (number : Nat) (line : List Char) : Except GridError (List Int64) :=
  (numerals line).mapM fun numeral =>
    match numeralWord? numeral with
    | some word => .ok word
    | none => .error (.elevation number (String.ofList numeral))

/-- The width and the height that the first line starts with. -/
def readHeader (line : List Char) : Except GridError (Nat × Nat) := do
  match ← readLine 1 line with
  | width :: height :: _ =>
    if 0 ≤ width.toInt ∧ 0 ≤ height.toInt then .ok (width.toInt.toNat, height.toInt.toNat)
    else .error (.header (String.ofList line))
  | _ => .error (.header (String.ofList line))

/-- The integers of each of the lines from the second on. -/
def readRows (lines : List (List Char)) : Except GridError (List (List Int64)) :=
  (lines.zipIdx 2).mapM fun line => readLine line.2 line.1

/-- The grid that the lines of a map describe. -/
def ofLines : List (List Char) → Except GridError Grid
  | [] => .error (.header "")
  | header :: body => do
    let (width, height) ← readHeader header
    let rows ← readRows (body.take height)
    if (body.drop height).all (·.all isBlank) then ofRows width height rows
    else .error (.rowCount height (height + 1))

/-- The grid that the text of a map describes. -/
def parse (text : String) : Except GridError Grid :=
  ofLines (lines text.toList)

end Downhill.Grid
