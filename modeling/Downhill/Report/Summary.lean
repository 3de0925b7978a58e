import Downhill.Report.Basic

/-!
# Reports as text

A summary has a line for the map, for each peak, for each cell of each level below a peak, for each shorter length,
and for the longest descent and the greatest drop; the last line names the cell that the greatest drop starts from.
-/

namespace Downhill

/-- A cell in a line of a summary. -/
def Cell.describe (cell : Cell) : String :=
  s!"x: {cell.x}, y: {cell.y}, elevation: {cell.elevation}"

/-- The lines for the levels below a peak, counted from 1. -/
def Peak.levelLines (levels : List (List Cell)) : List String :=
  (levels.zipIdx 1).flatMap fun level => level.1.map fun cell => s!"  level[{level.2}]: {cell.describe}"

def Peak.lines (peak : Peak) : List String :=
  s!"peak {peak.cell.describe}, drop: {peak.drop}" :: levelLines peak.levels

def LengthCount.line (count : LengthCount) : String :=
  s!"paths with length {count.length}: {count.summits}"

namespace Report

def summaryLines (report : Report) : List String :=
  [s!"map {report.width}x{report.height}: {report.nodes} nodes, {report.edges} edges, {report.summits} summits"]
    ++ report.peaks.flatMap Peak.lines
    ++ report.alternatives.map LengthCount.line
    ++ [s!"longest path: {report.longest}", s!"max vertical drop: {report.maxDrop}"]
    ++ (report.bestPeak.map fun cell => s!"from {cell.describe}").toList

/-- The lines of a report, each ended by a newline. -/
def summary (report : Report) : String :=
  String.join (report.summaryLines.map (· ++ "\n"))

end Report

end Downhill
