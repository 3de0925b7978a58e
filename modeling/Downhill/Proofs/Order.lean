import Downhill.Proofs.Peaks
import Downhill.Proofs.Recount

/-!
# The order of edges does not matter

Two sound terrains with an edge between the same cells have the same lengths and the same summits, whatever the
order of their lists of edges and however often an edge is in them. All that is read off a terrain, but the number
of edges, depends on the lengths, the summits and which edges there are.

* `Sound.longest_eq`, `Sound.summit_eq` : the same edges give the same lengths and summits;
* `report_congr`                        : reports on such terrains;
* `run_eq_of_mem_iff`                   : runs that name the same edges.
-/

namespace Downhill.Terrain

variable {g : Grid} {t t' : Terrain g}

theorem Sound.longest_eq (h : t.Sound) (h' : t'.Sound) (hd : ∀ v u, t.Descends v u ↔ t'.Descends v u) :
    t.longest = t'.longest :=
  Table.ext_get fun v => congrFun ((h.height.congr hd).unique h'.height) v

private theorem Linked.up_eq_nil_iff (h : t.Linked) {v : g.Node} : t.up.get v = [] ↔ ∀ u, ¬t.Descends u v := by
  rw [List.eq_nil_iff_forall_not_mem]
  exact forall_congr' fun u => not_congr (mem_up_iff h)

theorem Sound.summit_eq (h : t.Sound) (h' : t'.Sound) (hd : ∀ v u, t.Descends v u ↔ t'.Descends v u) :
    t.summit = t'.summit := by
  apply Table.ext_get
  intro v
  rw [Bool.eq_iff_iff, h.summit_iff, h'.summit_iff, h.up_eq_nil_iff, h'.up_eq_nil_iff]
  apply and_congr
  · exact forall_congr' fun u => not_congr (hd u v)
  · rw [ne_eq, ne_eq, List.eq_nil_iff_forall_not_mem, List.eq_nil_iff_forall_not_mem]
    exact not_congr (forall_congr' fun u => not_congr (hd v u))

/-! ### What is read off a terrain -/

private theorem summits_congr (hsummit : t.summit = t'.summit) : t.summits = t'.summits := by
  rw [summits, summits, hsummit]

private theorem summitLengths_congr (hlongest : t.longest = t'.longest) (hsummit : t.summit = t'.summit) :
    t.summitLengths = t'.summitLengths := by
  rw [summitLengths, summitLengths, summits_congr hsummit, hlongest]

private theorem histogram_congr (hlongest : t.longest = t'.longest) (hsummit : t.summit = t'.summit) :
    t.histogram = t'.histogram := by
  rw [histogram, histogram, summitLengths_congr hlongest hsummit]

private theorem maxLength?_congr (hlongest : t.longest = t'.longest) (hsummit : t.summit = t'.summit) :
    t.maxLength? = t'.maxLength? := by
  rw [maxLength?, maxLength?, summitLengths_congr hlongest hsummit]

private theorem peaks_congr (hlongest : t.longest = t'.longest) (hsummit : t.summit = t'.summit) (target : Option Nat) :
    t.peaks target = t'.peaks target := by
  simp only [peaks, summitsOfLength, maxLength?_congr hlongest hsummit, summits_congr hsummit, hlongest]

theorem report_congr (hlongest : t.longest = t'.longest) (hsummit : t.summit = t'.summit)
    (hd : ∀ v u, t.Descends v u ↔ t'.Descends v u) (alternatives : Nat) (withLevels : Bool) :
    t.report alternatives withLevels = { t'.report alternatives withLevels with edges := t.edgeCount } := by
  simp only [report, maxLength?_congr hlongest hsummit, peaks_congr hlongest hsummit, histogram_congr hlongest hsummit,
    summits_congr hsummit, trace_congr hlongest hd]

/-! ### Runs -/

private theorem descends_insertEach_bare {calls : List (Nat × Nat)} {v u : g.Node} :
    ((bare g).insertEach calls).1.Descends v u ↔ g.elevation u < g.elevation v ∧ (v.val, u.val) ∈ calls := by
  rw [Descends, insertEach_fst, mem_down_insertAll_bare]
  constructor
  · intro hex
    obtain ⟨e, he, rfl, rfl⟩ := hex
    exact ⟨e.descends, mem_named.mp he⟩
  · rintro ⟨hlt, hmem⟩
    exact ⟨⟨v, u, hlt⟩, mem_named.mpr hmem, rfl, rfl⟩

/-- Two runs of calls that name the same edges, in any order and as often as they like, end in terrains that agree in
all but the order and the number of their edges. -/
theorem run_eq_of_mem_iff {calls calls' : List (Nat × Nat)}
    (hcalls : ∀ call ∈ calls, (Edge.ofNat? g call.1 call.2).isSome)
    (hcalls' : ∀ call ∈ calls', (Edge.ofNat? g call.1 call.2).isSome) (hmem : ∀ call, call ∈ calls ↔ call ∈ calls') :
    let t := ((bare g).insertEach calls).1
    let t' := ((bare g).insertEach calls').1
    t.longest = t'.longest ∧ t.summit = t'.summit ∧ (∀ target, t.peaks target = t'.peaks target) ∧
      t.histogram = t'.histogram ∧ (t.recount = some t.longest ∧ t'.recount = some t.longest) ∧
      (∀ v length withLevels, t.trace v length withLevels = t'.trace v length withLevels) ∧
      ∀ alternatives withLevels,
        t.report alternatives withLevels =
          { t'.report alternatives withLevels with edges := calls.length } ∧
        (t'.report alternatives withLevels).edges = calls'.length := by
  intro t t'
  have hsound : t.Sound := (Reachable.bare.insertEach calls).sound
  have hsound' : t'.Sound := (Reachable.bare.insertEach calls').sound
  have hd : ∀ v u, t.Descends v u ↔ t'.Descends v u := by
    intro v u
    rw [descends_insertEach_bare, descends_insertEach_bare, hmem]
  have hlongest := hsound.longest_eq hsound' hd
  have hsummit := hsound.summit_eq hsound' hd
  have hcount : ∀ {calls}, (∀ call ∈ calls, (Edge.ofNat? g call.1 call.2).isSome) →
      ((bare g).insertEach calls).1.edgeCount = calls.length := by
    intro calls h
    rw [insertEach_fst, edgeCount_insertAll, edgeCount_bare, length_named h, Nat.zero_add]
  refine ⟨hlongest, hsummit, peaks_congr hlongest hsummit, histogram_congr hlongest hsummit,
    ⟨hsound.recount_eq, hlongest ▸ hsound'.recount_eq⟩, trace_congr hlongest hd, ?_⟩
  intro alternatives withLevels
  constructor
  · rw [report_congr hlongest hsummit hd, hcount hcalls]
  · exact hcount hcalls'

theorem run_eq_of_mem_iff_stairs :
    let calls := [(0, 1), (1, 2)]
    let calls' := [(1, 2), (0, 1), (1, 2)]
    (∀ call ∈ calls, (Edge.ofNat? Grid.stairs call.1 call.2).isSome) ∧
      (∀ call ∈ calls', (Edge.ofNat? Grid.stairs call.1 call.2).isSome) ∧ (∀ call, call ∈ calls ↔ call ∈ calls') ∧
      ((bare Grid.stairs).insertEach calls).1.longest = ((bare Grid.stairs).insertEach calls').1.longest :=
  have hmem : ∀ call : Nat × Nat, call ∈ [(0, 1), (1, 2)] ↔ call ∈ [(1, 2), (0, 1), (1, 2)] := by
    intro call
    simp only [List.mem_cons, List.not_mem_nil, or_false]
    tauto
  ⟨by decide, by decide, hmem, (run_eq_of_mem_iff (by decide) (by decide) hmem).1⟩

end Downhill.Terrain
