import Downhill.Command.Arguments
import Downhill.Command.Diagnostic
import Downhill.Grid.Load
import Downhill.Report.Json
import Downhill.Report.Summary
import Downhill.Terrain.Build

/-!
# Running a command

A command reads a map, builds its terrain and prints the report, as a summary or as JSON. It prints all of it or
nothing: a fault of the command line or of the map leaves the output empty and shows in the exit code.
-/

namespace Downhill.Command

/-- How a command ends. -/
inductive Outcome where
  | printed (text : String)
  | failed (error : GridError)
  | misused (misuse : Misuse)
deriving DecidableEq

namespace Outcome

def exitCode : Outcome → Nat
  | printed _ => 0
  | failed _ => 1
  | misused _ => 2

/-- What goes to standard output. -/
def output : Outcome → String
  | printed text => text
  | failed _ => ""
  | misused _ => ""

/-- The line that names a fault of the map. -/
def errorLine? : Outcome → Option String
  | printed _ => none
  | failed error => some error.errorLine
  | misused _ => none

end Outcome

def versionText : String := "descent_graph 0.1.0\n"

def helpText : String :=
  "Usage: descent-graph [OPTIONS] <MAP>\n" ++
  "\n" ++
  "Arguments:\n" ++
  "  <MAP>  Path to the elevation map: `width height` then one line per row\n" ++
  "\n" ++
  "Options:\n" ++
  "  -j, --json                         Print the full report as JSON\n" ++
  "  -t, --trace                        Include the frontier of every level below each peak\n" ++
  "  -a, --alternatives <ALTERNATIVES>  How many shorter path lengths to count summits for [default: 3]\n" ++
  "  -h, --help                         Print help\n" ++
  "  -V, --version                      Print version\n"

namespace Request

/-- The report on a grid that is asked for. -/
def report (request : Request) (g : Grid) : Report :=
  (Terrain.build g).report request.alternatives request.trace

/-- The text of a report in the form that is asked for. -/
def text (request : Request) (report : Report) : String :=
  if request.json then report.toJson.pretty 0 ++ "\n" else report.summary

/-- Answers a request from the content of the file that it names. -/
def answer (request : Request) (content : Except ReadFailure ByteArray) : Outcome :=
  match Grid.ofContent request.map content with
  | .ok g => .printed (request.text (request.report g))
  | .error error => .failed error

end Request

/-- Runs a command with a given way to read files. -/
def runWith {m : Type → Type} [Monad m] (read : String → m (Except ReadFailure ByteArray))
    (arguments : List String) : m Outcome :=
  match Action.read arguments with
  | .ok (.report request) => request.answer <$> read request.map
  | .ok .help => pure (.printed helpText)
  | .ok .version => pure (.printed versionText)
  | .error misuse => pure (.misused misuse)

/-- Runs a command in a folder. -/
def run (folder : Folder) (arguments : List String) : Outcome :=
  Id.run (runWith (fun path => pure (folder.read path)) arguments)

end Downhill.Command
