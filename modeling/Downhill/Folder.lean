import Downhill.Text.Pieces

/-!
# Reading a file of a folder

A folder holds regular files by name. A path is walked component by component from the folder, or from the root if
it starts with a slash. Outside the folder there are the directories above it, and nothing else is known there. The
walk stops at the first component that does not lead on, so of several faults in a path the leftmost is reported.
-/

namespace Downhill

/-- Why a file could not be read as text. -/
inductive ReadFailure where
  /-- No file or directory has the name. -/
  | notFound
  /-- The path goes on behind a regular file. -/
  | notDirectory
  /-- The path names a directory. -/
  | isDirectory
  /-- A component, or the whole path, has too many bytes. -/
  | nameTooLong
  /-- A NUL character ends a path early, so that no path can hold one. -/
  | nulInPath
  /-- The content is not the UTF-8 form of a text. -/
  | notUtf8
  /-- Any other refusal, with the system's number and text for it. -/
  | other (code : Nat) (text : String)
deriving DecidableEq

namespace ReadFailure

/-- The system's number for a refusal of its own. -/
def code? : ReadFailure → Option Nat
  | notFound => some 2
  | notDirectory => some 20
  | isDirectory => some 21
  | nameTooLong => some 36
  | nulInPath => none
  | notUtf8 => none
  | other code _ => some code

/-- What went wrong, in words. -/
def text : ReadFailure → String
  | notFound => "No such file or directory"
  | notDirectory => "Not a directory"
  | isDirectory => "Is a directory"
  | nameTooLong => "File name too long"
  | nulInPath => "file name contained an unexpected NUL byte"
  | notUtf8 => "stream did not contain valid UTF-8"
  | other _ text => text

/-- What went wrong, with the system's number if it has one. -/
def message (failure : ReadFailure) : String :=
  match failure.code? with
  | some code => s!"{failure.text} (os error {code})"
  | none => failure.text

end ReadFailure

/-- A directory of regular files. -/
structure Folder where
  files : List (String × ByteArray)

namespace Folder

/-- Where the walk along a path stands. -/
inductive Place where
  | inside
  | outside
  | file (content : ByteArray)

/-- The most bytes that a path may have. -/
def maxPath : Nat := 4095

/-- The most bytes that a component of a path may have. -/
def maxName : Nat := 255

/-- Follows one component of a path. An empty component, which a doubled or a final slash leaves, stays in place as
a dot does, but only a directory has components at all. -/
def follow (folder : Folder) (place : Place) (name : List Char) : Except ReadFailure Place :=
  match place with
  | .file _ => .error .notDirectory
  | .inside =>
    if name = [] ∨ name = ['.'] then .ok .inside
    else if name = ['.', '.'] then .ok .outside
    else if maxName < (String.ofList name).utf8ByteSize then .error .nameTooLong
    else match folder.files.lookup (String.ofList name) with
      | some content => .ok (.file content)
      | none => .error .notFound
  | .outside =>
    if name = [] ∨ name = ['.'] ∨ name = ['.', '.'] then .ok .outside
    else if maxName < (String.ofList name).utf8ByteSize then .error .nameTooLong
    else .error .notFound

/-- The content of the file that a path leads to. -/
def read (folder : Folder) (path : String) : Except ReadFailure ByteArray :=
  if path.toList.contains '\x00' then .error .nulInPath
  else if path = "" then .error .notFound
  else if maxPath < path.utf8ByteSize then .error .nameTooLong
  else do
    let start := if path.toList.head? = some '/' then Place.outside else Place.inside
    match ← (Text.pieces '/' path.toList).foldlM folder.follow start with
    | .file content => .ok content
    | .inside => .error .isDirectory
    | .outside => .error .isDirectory

/-- The text whose UTF-8 form a file's content is. -/
def text (content : ByteArray) : Except ReadFailure String :=
  match String.fromUTF8? content with
  | some text => .ok text
  | none => .error .notUtf8

end Folder

end Downhill
