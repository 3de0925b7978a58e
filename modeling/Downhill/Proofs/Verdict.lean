import Downhill.Proofs.Recount
import Downhill.Terrain.Validate

/-!
# Checks are exact

The lists of a terrain may hold anything, as long as edges down lead to lower cells. A check looks only at pairs of
cells with an edge down, so an entry up without its edge down is not seen by that part; but the recount breaks off
just then, since each entry up closes an edge down. So a check finds a terrain sound if and only if it is, and what
else it finds is true: a fault is named for the first cell that has it.

* `validate_eq_sound_iff`      : the check passes exactly the sound terrains;
* `holds_of_validate`          : a fault that the check names is one;
* `validate_eq_brokeOff_iff`   : when the recount breaks off;
* `validate_exact`             : the three together, in terms of walks along the lists.
-/

namespace Downhill

variable {g : Grid} {t : Terrain g}

/-- What a fault says of a terrain. A wrong length or a wrong entry of the set of summits is that of the first cell
with such a fault. -/
def Violation.Holds (t : Terrain g) : Violation → Prop
  | unpairedEdge upper lower =>
    ∃ u l : g.Node, u.val = upper ∧ l.val = lower ∧ (t.down.get u).count l ≠ (t.up.get l).count u
  | longestPath node expected found =>
    ∃ v : g.Node, v.val = node ∧ t.longest.get v = found ∧ IsGreatest (walkLengths t.Descends v) expected ∧
      found ≠ expected ∧ ∀ u < v, IsGreatest (walkLengths t.Descends u) (t.longest.get u)
  | missingSummit node =>
    ∃ v : g.Node, v.val = node ∧ t.summit.get v = false ∧ (t.up.get v = [] ∧ t.down.get v ≠ []) ∧
      ∀ u < v, t.summit.get u = true ↔ t.up.get u = [] ∧ t.down.get u ≠ []
  | spuriousSummit node =>
    ∃ v : g.Node, v.val = node ∧ t.summit.get v = true ∧ ¬(t.up.get v = [] ∧ t.down.get v ≠ []) ∧
      ∀ u < v, t.summit.get u = true ↔ t.up.get u = [] ∧ t.down.get u ≠ []

private theorem Grid.find?_nodes_eq_some {P : g.Node → Bool} {v : g.Node} (h : g.nodes.find? P = some v) :
    P v = true ∧ ∀ u < v, P u = false := by
  obtain ⟨hv, before, after, hsplit, hbefore⟩ := List.find?_eq_some_iff_append.mp h
  refine ⟨hv, ?_⟩
  intro u hu
  have hsorted : g.nodes.Pairwise (· < ·) := List.pairwise_lt_finRange g.size
  rw [hsplit, List.pairwise_append, List.pairwise_cons] at hsorted
  have hmem := g.mem_nodes u
  rw [hsplit, List.mem_append, List.mem_cons] at hmem
  rcases hmem with hmem | rfl | hmem
  · simpa using hbefore u hmem
  · exact absurd hu (Fin.lt_irrefl u)
  · exact absurd (hsorted.2.1.1 u hmem) (Fin.lt_asymm hu)

namespace Terrain

/-! ### The parts of a check -/

private theorem unpaired?_eq_none_iff :
    t.unpaired? = none ↔ ∀ u l, t.Descends u l → (t.down.get u).count l = (t.up.get l).count u := by
  simp only [unpaired?, List.findSome?_eq_none_iff, Option.map_eq_none_iff, Option.bind_eq_bind,
    Option.bind_eq_none_iff]
  constructor
  · intro h u l hd
    by_contra hne
    have hfound : ((t.down.get u).find? fun l => (t.down.get u).count l != (t.up.get l).count u).isSome :=
      List.find?_isSome.mpr ⟨l, hd, bne_iff_ne.mpr hne⟩
    obtain ⟨l', hl'⟩ := Option.isSome_iff_exists.mp hfound
    exact absurd (h u (Grid.mem_nodes u) l' hl') (Option.some_ne_none _)
  · intro h u _ l hl
    have hdiffer := List.find?_some hl
    exact absurd (h u l (List.mem_of_find?_eq_some hl)) (bne_iff_ne.mp hdiffer)

private theorem holds_of_unpaired? {violation : Violation} (h : t.unpaired? = some violation) : violation.Holds t := by
  obtain ⟨u, _, hu⟩ := List.exists_of_findSome?_eq_some h
  obtain ⟨_, hbind, rfl⟩ := Option.map_eq_some_iff.mp hu
  obtain ⟨l, hl, hval⟩ := Option.bind_eq_some_iff.mp hbind
  have hne := List.find?_some hl
  exact ⟨u, l, rfl, Option.some.inj hval, bne_iff_ne.mp hne⟩

private theorem mislaid?_eq_none_iff {expected : Table Nat g.size} :
    t.mislaid? expected = none ↔ t.longest = expected := by
  simp only [mislaid?, Option.map_eq_none_iff, List.find?_eq_none, bne_iff_ne, ne_eq, not_not]
  constructor
  · intro h
    exact Table.ext_get fun v => h v (Grid.mem_nodes v)
  · rintro rfl v _
    rfl

private theorem holds_of_mislaid? {expected : Table Nat g.size} (hheight : IsHeight t.Descends expected.get)
    {violation : Violation} (h : t.mislaid? expected = some violation) : violation.Holds t := by
  obtain ⟨v, hv, rfl⟩ := Option.map_eq_some_iff.mp h
  obtain ⟨hne, hfirst⟩ := Grid.find?_nodes_eq_some hv
  refine ⟨v, rfl, rfl, hheight.isGreatest v, bne_iff_ne.mp hne, ?_⟩
  intro u hu
  have hsame := hfirst u hu
  rw [bne_eq_false_iff_eq] at hsame
  rw [hsame]
  exact hheight.isGreatest u

private theorem hasSummitEdges_iff (t : Terrain g) (v : g.Node) :
    t.hasSummitEdges v = true ↔ t.up.get v = [] ∧ t.down.get v ≠ [] := by
  simp [hasSummitEdges]

private theorem judged_iff (t : Terrain g) (v : g.Node) :
    (t.hasSummitEdges v != t.summit.get v) = false ↔
      (t.summit.get v = true ↔ t.up.get v = [] ∧ t.down.get v ≠ []) := by
  rw [bne_eq_false_iff_eq, Bool.eq_iff_iff, hasSummitEdges_iff]
  exact iff_comm

private theorem misjudged?_eq_none_iff :
    t.misjudged? = none ↔ ∀ v, t.summit.get v = true ↔ t.up.get v = [] ∧ t.down.get v ≠ [] := by
  simp only [misjudged?, Option.map_eq_none_iff, List.find?_eq_none, Bool.not_eq_true, judged_iff]
  exact ⟨fun h v => h v (Grid.mem_nodes v), fun h v _ => h v⟩

private theorem holds_of_misjudged? {violation : Violation} (h : t.misjudged? = some violation) :
    violation.Holds t := by
  obtain ⟨v, hv, rfl⟩ := Option.map_eq_some_iff.mp h
  obtain ⟨hne, hfirst⟩ := Grid.find?_nodes_eq_some hv
  have hbefore : ∀ u < v, t.summit.get u = true ↔ t.up.get u = [] ∧ t.down.get u ≠ [] :=
    fun u hu => (judged_iff t u).mp (hfirst u hu)
  have hwrong : ¬(t.summit.get v = true ↔ t.up.get v = [] ∧ t.down.get v ≠ []) := by
    rw [← judged_iff, hne]
    simp
  by_cases hs : t.summit.get v = true
  · rw [if_pos hs]
    exact ⟨v, rfl, hs, fun hedges => hwrong ⟨fun _ => hedges, fun _ => hs⟩, hbefore⟩
  · rw [if_neg hs]
    refine ⟨v, rfl, by simpa using hs, ?_, hbefore⟩
    by_contra hedges
    exact hwrong ⟨fun h => absurd h hs, fun h => absurd h hedges⟩

/-! ### The whole check -/

/-- What a check can find: a fault of the first part, or else that the recount breaks off, or else a fault of the
other parts, or none. -/
private theorem validate_cases (t : Terrain g) :
    (∃ violation, t.validate = .violated violation ∧ t.unpaired? = some violation) ∨
      t.unpaired? = none ∧
        (t.validate = .brokeOff ∧ t.recount = none ∨
          ∃ expected, t.recount = some expected ∧
            ((∃ violation, t.validate = .violated violation ∧
                (t.mislaid? expected).or t.misjudged? = some violation) ∨
              t.validate = .sound ∧ t.mislaid? expected = none ∧ t.misjudged? = none)) := by
  unfold validate
  rcases t.unpaired? with _ | violation
  · refine .inr ⟨rfl, ?_⟩
    rcases t.recount with _ | expected
    · exact .inl ⟨rfl, rfl⟩
    · refine .inr ⟨expected, rfl, ?_⟩
      rcases hfault : (t.mislaid? expected).or t.misjudged? with _ | violation
      · exact .inr ⟨by simp only [hfault], Option.or_eq_none_iff.mp hfault⟩
      · exact .inl ⟨violation, by simp only [hfault], rfl⟩
  · exact .inl ⟨violation, rfl, rfl⟩

theorem Sound.validate_eq (h : t.Sound) : t.validate = .sound := by
  have hu : t.unpaired? = none := unpaired?_eq_none_iff.mpr fun u l _ => h.count_eq u l
  have hlength : t.mislaid? t.longest = none := mislaid?_eq_none_iff.mpr rfl
  have hsummit : t.misjudged? = none := misjudged?_eq_none_iff.mpr h.summit_iff
  simp only [validate, hu, h.recount_eq, hlength, hsummit, Option.none_or]

section

variable (hdown : ∀ v u, t.Descends v u → g.elevation u < g.elevation v)

include hdown

/-- A recount that ends after the first part of a check gives the heights along linked lists. -/
private theorem linked_of_unpaired? (h : t.unpaired? = none) {expected : Table Nat g.size}
    (hrec : t.recount = some expected) : t.Linked ∧ IsHeight t.Descends expected.get := by
  have hlinked := linked_of_recount hdown (unpaired?_eq_none_iff.mp h) hrec
  obtain ⟨table, htable, hheight⟩ := hlinked.exists_recount
  obtain rfl : expected = table := Option.some.inj (hrec.symm.trans htable)
  exact ⟨hlinked, hheight⟩

theorem validate_eq_sound_iff : t.validate = .sound ↔ t.Sound := by
  constructor
  · intro h
    rcases validate_cases t with ⟨_, hv, _⟩ | ⟨hu, ⟨hv, _⟩ | ⟨expected, hrec, ⟨_, hv, _⟩ | ⟨_, hlength, hsummit⟩⟩⟩
    · cases h.symm.trans hv
    · cases h.symm.trans hv
    · cases h.symm.trans hv
    · obtain ⟨hlinked, hheight⟩ := linked_of_unpaired? hdown hu hrec
      obtain rfl := mislaid?_eq_none_iff.mp hlength
      exact ⟨hlinked, hheight, misjudged?_eq_none_iff.mp hsummit⟩
  · exact Sound.validate_eq

theorem holds_of_validate {violation : Violation} (h : t.validate = .violated violation) : violation.Holds t := by
  rcases validate_cases t with ⟨_, hv, hu⟩ | ⟨hu, ⟨hv, _⟩ | ⟨expected, hrec, ⟨_, hv, hfault⟩ | ⟨hv, _⟩⟩⟩
  · obtain rfl := Verdict.violated.inj (h.symm.trans hv)
    exact holds_of_unpaired? hu
  · cases h.symm.trans hv
  · obtain rfl := Verdict.violated.inj (h.symm.trans hv)
    rcases Option.or_eq_some_iff.mp hfault with hfault | ⟨_, hfault⟩
    · exact holds_of_mislaid? (linked_of_unpaired? hdown hu hrec).2 hfault
    · exact holds_of_misjudged? hfault
  · cases h.symm.trans hv

/-- The check breaks off when each edge down is recorded equally often as an edge up, but not each edge up as an edge
down. -/
theorem validate_eq_brokeOff_iff :
    t.validate = .brokeOff ↔ (∀ u l, t.Descends u l → (t.down.get u).count l = (t.up.get l).count u) ∧
      ∃ u l, (t.down.get u).count l ≠ (t.up.get l).count u := by
  rw [← unpaired?_eq_none_iff]
  rcases validate_cases t with ⟨_, hv, hu⟩ | ⟨hu, ⟨hv, hrec⟩ | ⟨expected, hrec, hend⟩⟩
  · simp [hv, hu]
  · refine iff_of_true hv ⟨hu, ?_⟩
    by_contra hall
    push Not at hall
    have hlinked : t.Linked := ⟨fun hd => hdown _ _ hd, hall⟩
    obtain ⟨table, htable, _⟩ := hlinked.exists_recount
    cases hrec.symm.trans htable
  · have hlinked := (linked_of_unpaired? hdown hu hrec).1
    refine iff_of_false ?_ fun ⟨_, u, l, hne⟩ => hne (hlinked.count_eq u l)
    rcases hend with ⟨_, hv, _⟩ | ⟨hv, _⟩ <;> simp [hv]

end

/-- A check of a terrain whose edges down lead to lower cells passes exactly if the lists, the lengths and the summits
are right. A fault that it names is one, and it breaks off only on an entry up without its edge down. -/
theorem validate_exact (hdown : ∀ v u, t.Descends v u → g.elevation u < g.elevation v) :
    (t.validate = .sound ↔
      (∀ u l, (t.down.get u).count l = (t.up.get l).count u) ∧
        (∀ v, IsGreatest (walkLengths t.Descends v) (t.longest.get v)) ∧
        ∀ v, t.summit.get v = true ↔ t.up.get v = [] ∧ t.down.get v ≠ []) ∧
      (∀ violation, t.validate = .violated violation → violation.Holds t) ∧
      (t.validate = .brokeOff ↔ (∀ u l, t.Descends u l → (t.down.get u).count l = (t.up.get l).count u) ∧
        ∃ u l, (t.down.get u).count l ≠ (t.up.get l).count u) := by
  refine ⟨?_, fun _ => holds_of_validate hdown, validate_eq_brokeOff_iff hdown⟩
  rw [validate_eq_sound_iff hdown]
  constructor
  · intro h
    exact ⟨h.count_eq, h.height.isGreatest, h.summit_iff⟩
  · rintro ⟨hcount, hlength, hsummit⟩
    exact ⟨⟨fun hd => hdown _ _ hd, hcount⟩, isHeight_of_isGreatest hlength, hsummit⟩

/-- An entry up without its edge down, and a length that was not raised. -/
theorem validate_exact_stairs :
    let t := build Grid.stairs
    let extra := { t with up := t.up.put ⟨2, by decide⟩ [⟨1, by decide⟩, ⟨0, by decide⟩] }
    let stale := { t with longest := t.longest.put ⟨0, by decide⟩ 1 }
    (∀ v u, t.Descends v u → Grid.stairs.elevation u < Grid.stairs.elevation v) ∧
      (extra.validate = .brokeOff ∧ ∃ u l, (extra.down.get u).count l ≠ (extra.up.get l).count u) ∧
      stale.validate = .violated (.longestPath 0 2 1) ∧ Violation.Holds stale (.longestPath 0 2 1) := by
  intro t extra stale
  have hdown : ∀ v u, t.Descends v u → Grid.stairs.elevation u < Grid.stairs.elevation v :=
    fun _ _ => Reachable.build.sound.elevation_lt
  have hextra : extra.validate = .brokeOff := by decide
  have hstale : stale.validate = .violated (.longestPath 0 2 1) := by decide
  exact ⟨hdown, ⟨hextra, ((validate_exact (t := extra) hdown).2.2.mp hextra).2⟩, hstale,
    (validate_exact (t := stale) hdown).2.1 _ hstale⟩

end Terrain

end Downhill
