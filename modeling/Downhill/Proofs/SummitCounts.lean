import Downhill.Proofs.Histogram
import Downhill.Proofs.Summits
import Mathlib.Algebra.Order.BigOperators.Group.Multiset

/-!
# Summits counted by length

The summits form a set. In whatever order they are met, their lengths make the same histogram and have the same maximum,
and sorting those of one length gives the peaks of that length. Each summit has one length, which is at least 1 and at
most that of the longest descents. So it is counted once in the histogram, and once among the peaks and the shorter
lengths if a report lists all of these.

* `max?_eq_of_perm`, `eq_peaks_of_perm` : the order of the summits does not matter;
* `shorterLengths_eq`                  : the shorter lengths that a report lists;
* `report_alternatives`                : how many summits it counts for each of them;
* `summits_counted_of_reachable`       : the histogram and the counts of a report.
-/

namespace Downhill

theorem max?_eq_of_perm {l l' : List Nat} (h : l.Perm l') : l.max? = l'.max? := by
  apply Option.ext
  intro n
  simp only [List.max?_eq_some_iff, h.mem_iff]

/-- If a list without repetitions holds all elements of another list, how often they occur there adds up to the length
of that list. -/
private theorem sum_map_count {listed l : List Nat} (hnodup : listed.Nodup) (h : ∀ n ∈ l, n ∈ listed) :
    (listed.map fun n => l.count n).sum = l.length := by
  rw [← List.sum_toFinset _ hnodup]
  have hsum := Multiset.sum_count_eq_card (m := (l : Multiset Nat)) fun n hn => List.mem_toFinset.mpr (h n hn)
  simpa only [Multiset.coe_count, Multiset.coe_card] using hsum

/-! ### Shorter lengths -/

theorem shorterLengths_eq (longest limit : Nat) :
    shorterLengths longest limit = (List.range (min limit (longest - 1))).map fun k => longest - 1 - k := by
  rw [shorterLengths, List.reverse_range', ← List.map_take, List.take_range]
  apply List.map_congr_left
  intro k _
  omega

private theorem mem_shorterLengths {longest limit n : Nat} (h : longest - 1 ≤ limit) :
    n ∈ shorterLengths longest limit ↔ 1 ≤ n ∧ n < longest := by
  rw [shorterLengths, List.take_of_length_le (by simpa using h), List.mem_reverse, List.mem_range'_1]
  omega

private theorem nodup_shorterLengths (longest limit : Nat) : (shorterLengths longest limit).Nodup := by
  have hnodup : (List.range' 1 (longest - 1)).reverse.Nodup := List.nodup_reverse.mpr List.nodup_range'
  exact hnodup.sublist (List.take_sublist limit _)

namespace Terrain

variable {g : Grid} {t : Terrain g}

/-! ### The order of the summits -/

/-- Sorting the summits of a length, in whatever order they are met, gives the peaks of that length. -/
theorem eq_peaks_of_perm (t : Terrain g) {order found : List g.Node} {length : Nat} (horder : order.Perm t.summits)
    (hfound : found.Perm (order.filter fun v => t.longest.get v = length)) (hsorted : found.Pairwise (· ≤ ·)) :
    found = t.peaks (some length) := by
  have hperm : found.Perm (t.peaks (some length)) := hfound.trans (horder.filter _)
  have hpeaks : (t.peaks (some length)).Pairwise (· ≤ ·) := (pairwise_peaks t (some length)).imp Nat.le_of_lt
  exact List.Perm.eq_of_pairwise (fun _ _ _ _ => Fin.le_antisymm) hsorted hpeaks hperm

/-! ### Counts -/

private theorem count_summitLengths (t : Terrain g) (n : Nat) :
    t.summitLengths.count n = (t.peaks (some n)).length := by
  have hpeaks : t.peaks (some n) = t.summits.filter fun v => t.longest.get v = n := rfl
  rw [summitLengths, List.count_eq_countP, List.countP_map, List.countP_eq_length_filter, hpeaks]
  rfl

theorem report_alternatives (t : Terrain g) (alternatives : Nat) (withLevels : Bool) :
    (t.report alternatives withLevels).alternatives =
      (shorterLengths (t.report alternatives withLevels).longest alternatives).map fun n =>
        ⟨n, (t.peaks (some n)).length⟩ := by
  apply List.map_congr_left
  intro n _
  show (⟨n, ((histogramOf t.summitLengths).lookup n).getD 0⟩ : LengthCount) = _
  rw [lookup_histogramOf, count_summitLengths]

private theorem mem_summitLengths (h : t.Sound) {n : Nat} (hn : n ∈ t.summitLengths) :
    1 ≤ n ∧ n ≤ t.maxLength?.getD 0 := by
  obtain ⟨v, hv, rfl⟩ := List.mem_map.mp hn
  exact ⟨Nat.pos_of_ne_zero (longest_ne_zero_of_summit h (mem_summits.mp hv)), (isGreatest_longest h).2 ⟨v, rfl⟩⟩

private theorem length_peaks_none (t : Terrain g) :
    (t.peaks none).length = t.summitLengths.count (t.maxLength?.getD 0) := by
  rcases hmax : t.maxLength? with _ | length
  · rw [peaks, Option.none_or, hmax, List.max?_eq_none_iff.mp hmax]
    rfl
  · rw [peaks, Option.none_or, hmax, Option.getD_some, count_summitLengths]
    rfl

/-- If all shorter lengths are listed, each summit is counted among the peaks or for a shorter length. -/
private theorem length_peaks_add_sum (h : t.Sound) {alternatives : Nat} (withLevels : Bool)
    (hall : (t.report alternatives withLevels).longest - 1 ≤ alternatives) :
    let report := t.report alternatives withLevels
    report.peaks.length + (report.alternatives.map LengthCount.summits).sum = report.summits := by
  intro report
  have hall : report.longest - 1 ≤ alternatives := hall
  have hlisted : ∀ n ∈ t.summitLengths, n ∈ report.longest :: shorterLengths report.longest alternatives := by
    intro n hn
    have hle : 1 ≤ n ∧ n ≤ report.longest := mem_summitLengths h hn
    rw [List.mem_cons, mem_shorterLengths hall]
    omega
  have hnodup : (report.longest :: shorterLengths report.longest alternatives).Nodup := by
    refine List.nodup_cons.mpr ⟨fun hmem => ?_, nodup_shorterLengths _ _⟩
    exact Nat.lt_irrefl _ ((mem_shorterLengths hall).mp hmem).2
  have hpeaks : report.peaks.length = t.summitLengths.count report.longest := by
    rw [report_peaks, List.length_map, length_peaks_none]
    rfl
  have hcounts : report.alternatives.map LengthCount.summits =
      (shorterLengths report.longest alternatives).map fun n => t.summitLengths.count n := by
    rw [report_alternatives, List.map_map]
    exact List.map_congr_left fun n _ => (count_summitLengths t n).symm
  calc report.peaks.length + (report.alternatives.map LengthCount.summits).sum
      = ((report.longest :: shorterLengths report.longest alternatives).map fun n => t.summitLengths.count n).sum := by
        rw [hpeaks, hcounts, List.map_cons, List.sum_cons]
    _ = t.summitLengths.length := sum_map_count hnodup hlisted
    _ = report.summits := List.length_map _

/-- How a histogram and a report with the given number of alternatives count the summits of a terrain. -/
structure CountsSummits (t : Terrain g) (alternatives : Nat) (report : Report) : Prop where
  /-- The order in which the summits are met does not matter. -/
  histogram_eq {order : List g.Node} (horder : order.Perm t.summits) :
    histogramOf (order.map fun v => t.longest.get v) = t.histogram
  maxLength?_eq {order : List g.Node} (horder : order.Perm t.summits) :
    (order.map fun v => t.longest.get v).max? = t.maxLength?
  peaks_eq {order : List g.Node} (horder : order.Perm t.summits) (length : Nat) (found : List g.Node) :
    found.Perm (order.filter fun v => t.longest.get v = length) → found.Pairwise (· ≤ ·) →
      found = t.peaks (some length)
  descending : Descending t.histogram
  mem_histogram_iff (n count : Nat) : (n, count) ∈ t.histogram ↔ 0 < count ∧ count = (t.peaks (some n)).length
  lookup_histogram (n : Nat) : (t.histogram.lookup n).getD 0 = (t.peaks (some n)).length
  length_pos : ∀ entry ∈ t.histogram, 1 ≤ entry.1
  sum_histogram : (t.histogram.map Prod.snd).sum = t.summits.length
  /-- Lengths below the greatest one are listed also where no summit has them. -/
  alternatives_eq : report.alternatives = (List.range (min alternatives (report.longest - 1))).map fun k =>
    ⟨report.longest - 1 - k, (t.peaks (some (report.longest - 1 - k))).length⟩
  peaks_add_sum (hall : report.longest - 1 ≤ alternatives) :
    report.peaks.length + (report.alternatives.map LengthCount.summits).sum = report.summits

/-- In a reachable terrain each summit is counted once in the histogram, and once as a peak or for its length if the
report lists all lengths. -/
theorem summits_counted_of_reachable (h : t.Reachable) (alternatives : Nat) (withLevels : Bool) :
    CountsSummits t alternatives (t.report alternatives withLevels) where
  histogram_eq horder := histogramOf_perm (horder.map _)
  maxLength?_eq horder := max?_eq_of_perm (horder.map _)
  peaks_eq horder _ _ := eq_peaks_of_perm t horder
  descending := pairwise_histogramOf _
  mem_histogram_iff n count := by rw [histogram, mem_histogramOf, count_summitLengths]
  lookup_histogram n := by rw [histogram, lookup_histogramOf, count_summitLengths]
  length_pos entry hentry := by
    obtain ⟨hpos, hcount⟩ := mem_histogramOf.mp hentry
    exact (mem_summitLengths h.sound (List.count_pos_iff.mp (hcount ▸ hpos))).1
  sum_histogram := by rw [histogram, sum_map_snd_histogramOf, summitLengths, List.length_map]
  alternatives_eq := by
    rw [report_alternatives, shorterLengths_eq, List.map_map]
    rfl
  peaks_add_sum := length_peaks_add_sum h.sound withLevels

/-- Two summits, one with a descent of three edges and one with a descent of one edge. None has two. -/
theorem summits_counted_of_reachable_valley :
    let t := (bare Grid.valley).insertAll [⟨⟨3, by decide⟩, ⟨0, by decide⟩, by decide⟩,
      ⟨⟨0, by decide⟩, ⟨1, by decide⟩, by decide⟩, ⟨⟨1, by decide⟩, ⟨2, by decide⟩, by decide⟩,
      ⟨⟨4, by decide⟩, ⟨2, by decide⟩, by decide⟩]
    let order : List Grid.valley.Node := [⟨4, by decide⟩, ⟨3, by decide⟩]
    let report := t.report 5 false
    t.Reachable ∧ order.Perm t.summits ∧ t.histogram = [(3, 1), (1, 1)] ∧
      histogramOf (order.map fun v => t.longest.get v) = t.histogram ∧ report.longest - 1 ≤ 5 ∧
      report.alternatives = [⟨2, 0⟩, ⟨1, 1⟩] ∧
      report.peaks.length + (report.alternatives.map LengthCount.summits).sum = report.summits := by
  intro t order report
  have ht : t.Reachable := Reachable.bare.insertAll _
  have horder : order.Perm t.summits := by decide
  have hall : report.longest - 1 ≤ 5 := by decide
  have hcounts := summits_counted_of_reachable ht 5 false
  exact ⟨ht, horder, by decide, hcounts.histogram_eq horder, hall, by decide, hcounts.peaks_add_sum hall⟩

end Terrain

end Downhill
