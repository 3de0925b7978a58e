import Downhill.Text.Numeral

/-!
# Command lines

A command line names one map and sets options, before or after it. Arguments count from left to right: the first
one that asks for the version or the help settles the command, and the first one that is wrong is reported.

* `-j`, `--json` and `-t`, `--trace` are flags, given once at most;
* `-a`, `--alternatives` takes a number, attached or as the next argument;
* flags and one option with its value may share a dash; after `--` every argument is a name;
* an argument that starts with a dash is an option, unless it is the dash alone, and is no option's value.
-/

namespace Downhill.Command

/-- A wrong command line. -/
inductive Misuse where
  | unknownOption (name : String)
  | repeatedOption (name : String)
  | unexpectedValue (option : String)
  | missingValue (option : String)
  | invalidValue (option value : String)
  | emptyMap
  | missingMap
  | surplusArgument (argument : String)
deriving DecidableEq

def Misuse.message : Misuse → String
  | unknownOption name => s!"unknown option {name}"
  | repeatedOption name => s!"option {name} is given more than once"
  | unexpectedValue option => s!"option {option} takes no value"
  | missingValue option => s!"option {option} needs a value"
  | invalidValue option value => s!"invalid value {value} for option {option}"
  | emptyMap => "the name of the map is empty"
  | missingMap => "no map is named"
  | surplusArgument argument => s!"unexpected argument {argument}"

/-- A report that is asked for. -/
structure Request where
  map : String
  json : Bool
  trace : Bool
  alternatives : Nat
deriving DecidableEq

inductive Action where
  | report (request : Request)
  | help
  | version
deriving DecidableEq

/-- The number of shorter lengths that a report counts unless told otherwise. -/
def defaultAlternatives : Nat := 3

/-- What the arguments read so far have set. -/
structure Draft where
  map : Option String
  json : Bool
  trace : Bool
  alternatives : Option Nat

/-- The value of an unsigned 64-bit number, which a plus sign may precede. -/
def count? (value : List Char) : Option Nat :=
  let digits := match value with
    | '+' :: digits => digits
    | digits => digits
  if digits ≠ [] ∧ digits.all Char.isDigit ∧ Text.digitsValue digits < UInt64.size then
    some (Text.digitsValue digits)
  else none

namespace Draft

def empty : Draft := ⟨none, false, false, none⟩

def setMap (d : Draft) (name : String) : Except Misuse Draft :=
  if d.map.isSome then .error (.surplusArgument name)
  else if name = "" then .error .emptyMap
  else .ok { d with map := some name }

def setJson (d : Draft) : Except Misuse Draft :=
  if d.json then .error (.repeatedOption "--json") else .ok { d with json := true }

def setTrace (d : Draft) : Except Misuse Draft :=
  if d.trace then .error (.repeatedOption "--trace") else .ok { d with trace := true }

def setAlternatives (d : Draft) (value : List Char) : Except Misuse Draft :=
  match count? value with
  | some count =>
    if d.alternatives.isSome then .error (.repeatedOption "--alternatives")
    else .ok { d with alternatives := some count }
  | none => .error (.invalidValue "--alternatives" (String.ofList value))

/-- The command when all arguments are read. -/
def finish (d : Draft) : Except Misuse Action :=
  match d.map with
  | some map => .ok (.report ⟨map, d.json, d.trace, d.alternatives.getD defaultAlternatives⟩)
  | none => .error .missingMap

/-- Reads arguments that are all names. -/
def names (d : Draft) (args : List String) : Except Misuse Draft :=
  args.foldlM setMap d

end Draft

/-- What an argument leads to. -/
inductive Progress where
  /-- The next argument is read. -/
  | next (d : Draft)
  /-- The next argument is the number of alternatives. -/
  | awaiting (d : Draft)
  /-- The action is settled. -/
  | settled (action : Action)

/-- Reads the letters behind a dash. -/
def readLetters (d : Draft) : List Char → Except Misuse Progress
  | [] => .ok (.next d)
  | 'j' :: rest => do readLetters (← d.setJson) rest
  | 't' :: rest => do readLetters (← d.setTrace) rest
  | 'h' :: _ => .ok (.settled .help)
  | 'V' :: _ => .ok (.settled .version)
  | ['a'] => .ok (.awaiting d)
  | 'a' :: '=' :: value => do return .next (← d.setAlternatives value)
  | 'a' :: value => do return .next (← d.setAlternatives value)
  | c :: _ => .error (.unknownOption (String.ofList ['-', c]))

/-- Reads the word behind two dashes, with what follows its equals sign if it has one. -/
def readWord (d : Draft) (word : List Char) (value : Option (List Char)) : Except Misuse Progress :=
  match String.ofList word, value with
  | "json", none => do return .next (← d.setJson)
  | "trace", none => do return .next (← d.setTrace)
  | "alternatives", none => .ok (.awaiting d)
  | "alternatives", some value => do return .next (← d.setAlternatives value)
  | "help", none => .ok (.settled .help)
  | "version", none => .ok (.settled .version)
  | name, none => .error (.unknownOption ("--" ++ name))
  | name, some _ =>
    if name ∈ ["json", "trace", "help", "version"] then .error (.unexpectedValue ("--" ++ name))
    else .error (.unknownOption ("--" ++ name))

/-- Splits a long option at its first equals sign. -/
def splitValue (option : List Char) : List Char × Option (List Char) :=
  match option.dropWhile (· ≠ '=') with
  | [] => (option, none)
  | _ :: value => (option.takeWhile (· ≠ '='), some value)

/-- Reads one argument. -/
def readArgument (d : Draft) (argument : String) : Except Misuse Progress :=
  match argument.toList with
  | '-' :: '-' :: option => readWord d (splitValue option).1 (splitValue option).2
  | '-' :: c :: rest => readLetters d (c :: rest)
  | _ => do return .next (← d.setMap argument)

/-- Whether an argument can be the value of an option. -/
def isValue (argument : String) : Bool :=
  argument = "-" || argument.toList.head? != some '-'

/-- Reads the arguments behind what a draft holds. -/
def readFrom (d : Draft) : List String → Except Misuse Action
  | [] => d.finish
  | argument :: rest =>
    if argument = "--" then do (← d.names rest).finish
    else do
      match ← readArgument d argument with
      | .settled action => .ok action
      | .next d => readFrom d rest
      | .awaiting d =>
        match rest with
        | [] => .error (.missingValue "--alternatives")
        | value :: rest =>
          if isValue value then do readFrom (← d.setAlternatives value.toList) rest
          else .error (.missingValue "--alternatives")

/-- The command that a list of arguments gives. -/
def Action.read (arguments : List String) : Except Misuse Action :=
  readFrom .empty arguments

end Downhill.Command
