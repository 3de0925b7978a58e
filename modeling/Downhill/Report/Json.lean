import Downhill.Json
import Downhill.Report.Basic

/-!
# Reports as JSON

Each field has its key, in the order of the report. The levels below a peak are left out where there are none.
-/

namespace Downhill

def Cell.toJson (cell : Cell) : Json :=
  .object [("x", .number cell.x), ("y", .number cell.y), ("elevation", .number cell.elevation)]

/-- The member for the levels below a peak. -/
def Peak.levelsMember (levels : List (List Cell)) : List (String × Json) :=
  if levels.isEmpty then []
  else [("levels", .array (levels.map fun level => .array (level.map Cell.toJson)))]

def Peak.toJson (peak : Peak) : Json :=
  .object ([("cell", peak.cell.toJson), ("vertical_drop", .number peak.drop), ("min_elevation", .number peak.lowest)]
    ++ levelsMember peak.levels)

def LengthCount.toJson (count : LengthCount) : Json :=
  .object [("path_length", .number count.length), ("summits", .number count.summits)]

def Report.toJson (report : Report) : Json :=
  .object [
    ("width", .number report.width),
    ("height", .number report.height),
    ("nodes", .number report.nodes),
    ("edges", .number report.edges),
    ("summits", .number report.summits),
    ("longest_path", .number report.longest),
    ("max_vertical_drop", .number report.maxDrop),
    ("best_peak", (report.bestPeak.map Cell.toJson).getD .null),
    ("peaks", .array (report.peaks.map Peak.toJson)),
    ("alternatives", .array (report.alternatives.map LengthCount.toJson))]

end Downhill
