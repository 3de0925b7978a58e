import Downhill.Grid.Error

/-!
# Error lines

A command that fails for want of a grid ends with a line that names the fault and lists its particulars.
-/

namespace Downhill

open Text

/-- A name with labelled particulars in braces. -/
def particulars (name : String) (fields : List (String × String)) : String :=
  name ++ String.ofList [' ', '{', ' '] ++ ", ".intercalate (fields.map fun field => field.1 ++ ": " ++ field.2) ++
    String.ofList [' ', '}']

namespace ReadFailure

/-- The class of a failure. -/
def kind : ReadFailure → String
  | notFound => "NotFound"
  | notDirectory => "NotADirectory"
  | isDirectory => "IsADirectory"
  | nameTooLong => "InvalidFilename"
  | nulInPath => "InvalidInput"
  | notUtf8 => "InvalidData"
  | other code _ => if code = 13 then "PermissionDenied" else "Uncategorized"

def diagnostic (failure : ReadFailure) : String :=
  match failure.code? with
  | some code =>
    particulars "Os" [("code", toString code), ("kind", failure.kind), ("message", quoted failure.text)]
  | none => particulars "Error" [("kind", failure.kind), ("message", quoted failure.text)]

end ReadFailure

namespace GridError

def diagnostic : GridError → String
  | empty width height => particulars "EmptyGrid" [("width", toString width), ("height", toString height)]
  | tooLarge width height => particulars "TooLarge" [("width", toString width), ("height", toString height)]
  | header line => "Header(" ++ quoted line ++ ")"
  | rowLength row expected found =>
    particulars "MalformedGrid" [("row", toString row), ("expected", toString expected), ("found", toString found)]
  | elevation line numeral => particulars "Elevation" [("line", toString line), ("token", quoted numeral)]
  | rowCount expected found => particulars "RowCount" [("expected", toString expected), ("found", toString found)]
  | unreadable path failure => particulars "Io" [("path", quoted path), ("source", failure.diagnostic)]

/-- The line that a failed command ends with. -/
def errorLine (error : GridError) : String :=
  "Error: Grid(" ++ error.diagnostic ++ ")"

end GridError

end Downhill
