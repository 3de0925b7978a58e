import Downhill.Grid.Parse

/-!
# Grids from files

A map is read from the content of its file, which is the UTF-8 form of its text. Every character of the text counts:
a byte order mark is one like any other.
-/

namespace Downhill

namespace Grid

/-- The grid that the content of the file at `path` describes, if there is a content. -/
def ofContent (path : String) (content : Except ReadFailure ByteArray) : Except GridError Grid :=
  match content.bind Folder.text with
  | .ok text => parse text
  | .error failure => .error (.unreadable path failure)

/-- The grid that the map at `path` describes. -/
def load (folder : Folder) (path : String) : Except GridError Grid :=
  ofContent path (folder.read path)

end Grid

end Downhill
