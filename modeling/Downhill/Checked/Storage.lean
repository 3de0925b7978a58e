import Downhill.Checked.Word
import Downhill.Grid.OfRows
import Downhill.Grid.Reshape

/-!
# Grids as they are stored

A grid is stored as its width, its height and one list of elevations. Nothing in the type says that these fit together.
What is read from the list is found by computed addresses: a cell by the place of its row and its place in the row, a
row by the addresses of its first cell and of the next row's, all rows by cutting the list into pieces. A reading has
no result if an address leaves its range or is not one of the list.
-/

namespace Downhill

/-- A width, a height and elevations row after row. -/
structure Storage where
  width : Nat
  height : Nat
  cells : List Int64
deriving DecidableEq

/-- A way to reshape a grid. -/
inductive Reshaping where
  | mirror
  | transpose
deriving DecidableEq

namespace Storage

open Checked

/-- Stores a grid of the given width and height while its rows come in. -/
def ofRows (width height : Nat) (rows : List (List Int64)) : Except GridError Storage :=
  if width = 0 ∨ height = 0 then .error (.empty width height)
  else match mul width height with
    | none => .error (.tooLarge width height)
    | some _ => (Grid.gather width height 0 [] rows).map (Storage.mk width height)

/-- The elevation in column `x` of row `y`. -/
def elevation (s : Storage) (x y : Nat) : Option Int64 :=
  if x < s.width ∧ y < s.height then do s.cells[← add (← mul y s.width) x]?
  else none

/-- The elements from address `start` on and before address `stop`. -/
def slice (cells : List Int64) (start stop : Nat) : Option (List Int64) :=
  if start ≤ stop ∧ stop ≤ cells.length then some ((cells.take stop).drop start) else none

/-- The elevations of a row, from left to right. -/
def row (s : Storage) (y : Nat) : Option (List Int64) := do
  slice s.cells (← mul y s.width) (← mul (← add y 1) s.width)

/-- Cuts the given number of pieces of one length off the front of a list. -/
def pieces (length : Nat) : Nat → List Int64 → List (List Int64)
  | 0, _ => []
  | count + 1, cells => cells.take length :: pieces length count (cells.drop length)

/-- All rows, from the top: as many pieces of the width as there are, without what is left over. -/
def rows (s : Storage) : Option (List (List Int64)) := do
  return pieces s.width (← div s.cells.length s.width) s.cells

/-- The same elevations with left and right exchanged. -/
def mirrored (s : Storage) : Option Storage := do
  return { s with cells := (← s.rows).flatMap List.reverse }

/-- The columns and rows of all cells, column by column. -/
def columns (width height : Nat) : List (Nat × Nat) :=
  (List.range width).flatMap fun x => (List.range height).map fun y => (x, y)

/-- The same elevations with rows and columns exchanged. -/
def transposed (s : Storage) : Option Storage := do
  return {
    width := s.height
    height := s.width
    cells := ← (columns s.width s.height).mapM fun place => s.elevation place.1 place.2 }

/-- Reshapes what is stored once. -/
def apply (s : Storage) : Reshaping → Option Storage
  | .mirror => s.mirrored
  | .transpose => s.transposed

/-- Reshapes what is stored in several ways one after another. -/
def reshape (s : Storage) (ways : List Reshaping) : Option Storage :=
  ways.foldlM apply s

end Storage

namespace Grid

/-- A grid as it is stored. -/
def storage (g : Grid) : Storage :=
  ⟨g.width, g.height, g.cells.toList⟩

/-- Reshapes a grid once. -/
def apply (g : Grid) : Reshaping → Grid
  | .mirror => g.mirrored
  | .transpose => g.transposed

/-- Reshapes a grid in several ways one after another. -/
def reshape (g : Grid) (ways : List Reshaping) : Grid :=
  ways.foldl apply g

end Grid

end Downhill
