/-!
# JSON on several lines

The values that a report needs, and their text with two spaces of indentation for each level, one member or item a
line and nothing between the brackets of an empty list or object.
-/

namespace Downhill

/-- A JSON value without text or truth values. -/
inductive Json where
  | null
  | number (value : Int)
  | array (items : List Json)
  | object (members : List (String × Json))

namespace Json

/-- The start of a line at a level of indentation. -/
def newline (level : Nat) : String :=
  "\n" ++ String.ofList (List.replicate (2 * level) ' ')

/-- Lines between brackets, one level further in than the brackets. -/
def block (opening closing : Char) (level : Nat) (lines : List String) : String :=
  if lines.isEmpty then String.ofList [opening, closing]
  else
    String.singleton opening ++ newline (level + 1) ++ (("," ++ newline (level + 1)).intercalate lines) ++
      newline level ++ String.singleton closing

mutual

/-- The text of a value whose last line stands at a level of indentation. -/
def pretty (level : Nat) : Json → String
  | null => "null"
  | number value => toString value
  | array items => block '[' ']' level (prettyItems (level + 1) items)
  | object members => block '{' '}' level (prettyMembers (level + 1) members)

/-- The texts of the items of a list. -/
def prettyItems (level : Nat) : List Json → List String
  | [] => []
  | item :: items => pretty level item :: prettyItems level items

/-- The texts of the members of an object. A key holds nothing that would have to be escaped. -/
def prettyMembers (level : Nat) : List (String × Json) → List String
  | [] => []
  | (key, value) :: members => ("\"" ++ key ++ "\": " ++ pretty level value) :: prettyMembers level members

end

end Json

end Downhill
