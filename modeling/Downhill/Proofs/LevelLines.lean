import Downhill.Proofs.JsonKeys
import Downhill.Report.Summary

/-!
# The lines for the levels of a summary

The lines of a summary that stand for the levels below its peaks start with `  level[`, and no other line does. Without
them the summary is that of the same report without levels.

* `withoutLines_join`    : a text of closed lines without those that start in a given way;
* `withoutLines_summary` : a summary without the lines for the levels.
-/

namespace Downhill

/-! ### Without some lines -/

namespace Text

/-- Whether a line starts in another way. -/
def startsOtherwise (start : String) (line : List Char) : Bool := !start.toList.isPrefixOf line

/-- A text without the lines that start in the given way. -/
def withoutLines (start text : String) : String :=
  String.ofList (['\n'].intercalate ((pieces '\n' text.toList).filter (startsOtherwise start)))

private theorem pieces_join {lines : List String} (h : ∀ line ∈ lines, '\n' ∉ line.toList) :
    pieces '\n' (String.join (lines.map (· ++ "\n"))).toList = lines.map String.toList ++ [[]] := by
  rw [String.toList_join, List.flatMap_map]
  induction lines with
  | nil => rfl
  | cons line lines ih =>
    rw [List.forall_mem_cons] at h
    rw [List.flatMap_cons, String.toList_append, List.append_assoc, List.map_cons, List.cons_append, ← ih h.2]
    exact pieces_append_separator h.1 _

private theorem intercalate_append_nil (lines : List String) :
    ['\n'].intercalate (lines.map String.toList ++ [[]]) = (String.join (lines.map (· ++ "\n"))).toList := by
  rw [String.toList_join, List.flatMap_map]
  induction lines with
  | nil => rfl
  | cons line lines ih =>
    rw [List.map_cons, List.cons_append, List.intercalate_cons_of_ne_nil (by simp), ih, List.flatMap_cons,
      String.toList_append]
    rfl

/-- Whole lines are left out of a text in which each line is closed by a newline. -/
theorem withoutLines_join {start : String} (hstart : start ≠ "") {lines : List String}
    (h : ∀ line ∈ lines, '\n' ∉ line.toList) :
    withoutLines start (String.join (lines.map (· ++ "\n"))) =
      String.join ((lines.filter fun line => startsOtherwise start line.toList).map (· ++ "\n")) := by
  have hend : [[]].filter (startsOtherwise start) = [[]] := by
    unfold startsOtherwise
    cases hchars : start.toList with
    | nil => exact absurd (String.toList_eq_nil_iff.mp hchars) hstart
    | cons c chars => rfl
  rw [withoutLines, pieces_join h, List.filter_append, hend, List.filter_map, intercalate_append_nil,
    String.ofList_toList]
  rfl

example : withoutLines "  level[" "peak\n  level[1]: x\nmap  level[\n" = "peak\nmap  level[\n" := by decide

end Text

/-! ### Lines of a summary -/

/-- A text without a newline. -/
def OneLine (text : String) : Prop := '\n' ∉ text.toList

instance : DecidablePred OneLine := fun text => inferInstanceAs (Decidable ('\n' ∉ text.toList))

namespace OneLine

private theorem append {front back : String} (h : OneLine front) (h' : OneLine back) : OneLine (front ++ back) := by
  intro hmem
  rw [String.toList_append, List.mem_append] at hmem
  exact hmem.elim h h'

private theorem int (z : Int) : OneLine (toString z) :=
  Text.not_mem_toString rfl (by decide) z

private theorem nat (n : Nat) : OneLine (toString n) := int n

end OneLine

private theorem Cell.oneLine_describe (cell : Cell) : OneLine cell.describe := by
  have hx : OneLine s!"x: {cell.x}" := .append (by decide) (.nat _)
  have hy : OneLine s!"x: {cell.x}, y: {cell.y}" := (hx.append (by decide)).append (.nat _)
  exact (hy.append (by decide)).append (.int _)

private theorem Peak.oneLine_of_mem_lines {peak : Peak} {line : String} (h : line ∈ peak.lines) : OneLine line := by
  rw [lines, List.mem_cons] at h
  rcases h with rfl | h
  · have hcell : OneLine s!"peak {peak.cell.describe}" := .append (by decide) peak.cell.oneLine_describe
    exact (hcell.append (by decide)).append (.nat _)
  · obtain ⟨level, _, h⟩ := List.mem_flatMap.mp h
    obtain ⟨cell, _, rfl⟩ := List.mem_map.mp h
    have hlevel : OneLine s!"  level[{level.2}" := .append (by decide) (.nat _)
    exact (hlevel.append (by decide)).append cell.oneLine_describe

private theorem LengthCount.oneLine_line (count : LengthCount) : OneLine count.line := by
  have hlength : OneLine s!"paths with length {count.length}" := .append (by decide) (.nat _)
  exact (hlength.append (by decide)).append (.nat _)

private theorem Report.oneLine_of_mem_summaryLines {report : Report} {line : String} (h : line ∈ report.summaryLines) :
    OneLine line := by
  simp only [summaryLines, List.mem_append, List.mem_cons, List.not_mem_nil, or_false, List.mem_flatMap, List.mem_map,
    Option.mem_toList, Option.map_eq_some_iff] at h
  rcases h with (((rfl | ⟨peak, _, hline⟩) | ⟨count, _, rfl⟩) | rfl | rfl) | ⟨cell, _, rfl⟩
  · have hsize : OneLine s!"map {report.width}x{report.height}" :=
      ((OneLine.append (by decide) (.nat _)).append (by decide)).append (.nat _)
    have hedges : OneLine s!"map {report.width}x{report.height}: {report.nodes} nodes, {report.edges}" :=
      (((hsize.append (by decide)).append (.nat _)).append (by decide)).append (.nat _)
    exact ((hedges.append (by decide)).append (.nat _)).append (by decide)
  · exact peak.oneLine_of_mem_lines hline
  · exact count.oneLine_line
  · exact .append (by decide) (.nat _)
  · exact .append (by decide) (.nat _)
  · exact .append (by decide) cell.oneLine_describe

/-! ### Without levels -/

def Peak.withoutLevels (peak : Peak) : Peak := { peak with levels := [] }

/-- A report without the levels below its peaks. -/
def Report.withoutLevels (report : Report) : Report :=
  { report with peaks := report.peaks.map Peak.withoutLevels }

/-- How the lines for the levels start. -/
def levelStart : String := "  level["

/-- A line that starts with another character than a blank is not one of a level. -/
private theorem startsOtherwise_append (front : String) (hfront : front.toList.head?.any (· ≠ ' ') = true)
    (back : List Char) :
    Text.startsOtherwise levelStart (front.toList ++ back) = true := by
  obtain ⟨c, hc, hne⟩ := (Option.any_eq_true _ _).mp hfront
  rw [Text.startsOtherwise, Bool.not_eq_true', ← Bool.not_eq_true, List.isPrefixOf_iff_prefix]
  rintro ⟨rest, hrest⟩
  have hblank : (front.toList ++ back).head? = some ' ' := by
    rw [← hrest]
    rfl
  rw [List.head?_append, hc] at hblank
  exact of_decide_eq_true hne (Option.some.inj hblank)

private theorem Peak.startsOtherwise_head (peak : Peak) :
    Text.startsOtherwise levelStart (s!"peak {peak.cell.describe}, drop: {peak.drop}").toList = true := by
  simp only [String.toList_append, List.append_assoc]
  exact startsOtherwise_append "peak " (by decide) _

private theorem Peak.not_startsOtherwise_of_mem_levelLines {levels : List (List Cell)} :
    ∀ line ∈ levelLines levels, ¬Text.startsOtherwise levelStart line.toList = true := by
  intro line hline
  obtain ⟨level, _, hline⟩ := List.mem_flatMap.mp hline
  obtain ⟨cell, _, rfl⟩ := List.mem_map.mp hline
  have hprefix : levelStart.toList <+: (s!"  level[{level.2}]: {cell.describe}").toList := by
    simp only [String.toList_append, List.append_assoc]
    exact List.prefix_append _ _
  rw [Text.startsOtherwise, List.isPrefixOf_iff_prefix.mpr hprefix]
  exact Bool.false_ne_true

/-- Of the lines of a peak, the first one remains. -/
private theorem Peak.filter_lines (peak : Peak) :
    peak.lines.filter (fun line => Text.startsOtherwise levelStart line.toList) = peak.withoutLevels.lines := by
  rw [lines, List.filter_cons, if_pos peak.startsOtherwise_head,
    List.filter_eq_nil_iff.mpr not_startsOtherwise_of_mem_levelLines]
  rfl

private theorem Peak.filter_not_lines (peak : Peak) :
    peak.lines.filter (fun line => !Text.startsOtherwise levelStart line.toList) = levelLines peak.levels := by
  rw [lines, List.filter_cons, peak.startsOtherwise_head]
  apply List.filter_eq_self.mpr
  intro line hline
  rw [eq_false_of_ne_true (not_startsOtherwise_of_mem_levelLines line hline), Bool.not_false]

private theorem Report.startsOtherwise_of_mem_summaryLines {report : Report} {line : String}
    (h : line ∈ report.withoutLevels.summaryLines) : Text.startsOtherwise levelStart line.toList = true := by
  simp only [summaryLines, List.mem_append, List.mem_cons, List.not_mem_nil, or_false, List.mem_flatMap, List.mem_map,
    Option.mem_toList, Option.map_eq_some_iff] at h
  rcases h with (((rfl | ⟨peak, hpeak, hline⟩) | ⟨count, _, rfl⟩) | rfl | rfl) | ⟨cell, _, rfl⟩
  · simp only [String.toList_append, List.append_assoc]
    exact startsOtherwise_append "map " (by decide) _
  · obtain ⟨peak, _, rfl⟩ := List.mem_map.mp hpeak
    rw [List.mem_singleton.mp hline]
    exact peak.withoutLevels.startsOtherwise_head
  · unfold LengthCount.line
    simp only [String.toList_append, List.append_assoc]
    exact startsOtherwise_append "paths with length " (by decide) _
  · rw [String.toList_append]
    exact startsOtherwise_append "longest path: " (by decide) _
  · rw [String.toList_append]
    exact startsOtherwise_append "max vertical drop: " (by decide) _
  · rw [String.toList_append]
    exact startsOtherwise_append "from " (by decide) _

private theorem Report.filter_summaryLines (report : Report) :
    report.summaryLines.filter (fun line => Text.startsOtherwise levelStart line.toList) =
      report.withoutLevels.summaryLines := by
  calc report.summaryLines.filter (fun line => Text.startsOtherwise levelStart line.toList)
    _ = report.withoutLevels.summaryLines.filter fun line => Text.startsOtherwise levelStart line.toList := by
        simp only [summaryLines, withoutLevels, List.filter_append, List.filter_flatMap, List.flatMap_map,
          Peak.filter_lines]
        rfl
    _ = report.withoutLevels.summaryLines :=
        List.filter_eq_self.mpr fun line hline => startsOtherwise_of_mem_summaryLines hline

/-- The lines left out are those for the levels. -/
private theorem Report.filter_not_summaryLines (report : Report) :
    report.summaryLines.filter (fun line => !Text.startsOtherwise levelStart line.toList) =
      report.peaks.flatMap fun peak => Peak.levelLines peak.levels := by
  have hnone : ∀ line ∈ report.withoutLevels.summaryLines, ¬(!Text.startsOtherwise levelStart line.toList) = true := by
    intro line hline
    rw [startsOtherwise_of_mem_summaryLines hline]
    exact Bool.false_ne_true
  simp only [summaryLines, withoutLevels, List.forall_mem_append] at hnone
  obtain ⟨⟨⟨⟨hmap, -⟩, hshorter⟩, hlongest⟩, hbest⟩ := hnone
  rw [summaryLines, List.filter_append, List.filter_append, List.filter_append, List.filter_append,
    List.filter_eq_nil_iff.mpr hmap, List.filter_eq_nil_iff.mpr hshorter, List.filter_eq_nil_iff.mpr hlongest,
    List.filter_eq_nil_iff.mpr hbest, List.nil_append, List.append_nil, List.append_nil, List.append_nil,
    List.filter_flatMap]
  simp only [Peak.filter_not_lines]

/-- The lines of a summary that start as those for the levels do. -/
theorem Report.filter_pieces_summary (report : Report) :
    (Text.pieces '\n' report.summary.toList).filter (fun line => !Text.startsOtherwise levelStart line) =
      (report.peaks.flatMap fun peak => Peak.levelLines peak.levels).map String.toList := by
  rw [summary, Text.pieces_join fun line hline => oneLine_of_mem_summaryLines hline, List.filter_append,
    List.filter_map, ← filter_not_summaryLines]
  exact List.append_nil _

/-- Without the lines for the levels, a summary is that of the report without levels. -/
theorem Report.withoutLines_summary (report : Report) :
    Text.withoutLines levelStart report.summary = report.withoutLevels.summary := by
  rw [summary, Text.withoutLines_join (by decide) fun line hline => oneLine_of_mem_summaryLines hline,
    filter_summaryLines]
  rfl

end Downhill
