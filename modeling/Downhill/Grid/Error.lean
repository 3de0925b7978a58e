import Downhill.Folder
import Downhill.Text.Quoted

/-!
# Why there is no grid

The faults of rows, of a map's text and of its file, each with its wording. Rows are counted from 0; lines of a text
are counted from 1, so that row 0 stands on line 2.
-/

namespace Downhill

open Text

/-- A fault of a map, or of the rows for a grid. -/
inductive GridError where
  /-- A width or height of zero. -/
  | empty (width height : Nat)
  /-- Too many cells to number with 64 bits. -/
  | tooLarge (width height : Nat)
  /-- A first line that does not start with a width and a height. -/
  | header (line : String)
  /-- A row of another length than the grid's width. -/
  | rowLength (row expected found : Nat)
  /-- A numeral that is not a 64-bit integer in ASCII digits. -/
  | elevation (line : Nat) (numeral : String)
  /-- Too few or too many rows. -/
  | rowCount (expected found : Nat)
  /-- A file that could not be read as text. -/
  | unreadable (path : String) (failure : ReadFailure)
deriving DecidableEq

namespace GridError

/-- The wording of a fault. -/
def message : GridError → String
  | empty width height => s!"grid must have a positive width and height, got {width}x{height}"
  | tooLarge width height => s!"grid of {width}x{height} cells is too large to address"
  | header line => s!"malformed header: expected `width height`, got {quoted line}"
  | rowLength row expected found => s!"malformed grid: row {row} has {found} values, expected {expected}"
  | elevation line numeral => s!"line {line}: {quoted numeral} does not fit in an elevation"
  | rowCount expected found => s!"malformed grid: found {found} rows, expected {expected}"
  | unreadable path failure => s!"cannot read {quoted path}: {failure.message}"

end GridError

end Downhill
