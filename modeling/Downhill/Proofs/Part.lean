import Downhill.Proofs.Peaks
import Downhill.Proofs.Neighbours
import Mathlib.Data.List.Forall2

/-!
# Parts of a terrain

A terrain is a part of another one if its cells have a place there, at their elevation, and the lists of edges at these
places are its own, but for their order. So no edge leads out of the part or into it: a descent from a place of the part
stays in it, and lengths, summits and traces are the same as without the rest of the terrain. The terrain of a grid is
such a part of the terrain of another grid if its cells are neighbours there as before, and all their other neighbours
there lie at their own elevation.

* `IsPart.walk_iff`                       : the descents from the cells of a part;
* `IsPart.longest_eq`, `IsPart.summit_eq` : their lengths, and which of them are summits;
* `IsPart.trace`                          : what the descents of a length from a cell come to;
* `Grid.IsPart.build`                     : the terrain of a part of a grid.
-/

namespace Downhill

variable {g h : Grid} {f : g.Node → h.Node}

/-- The terrain `t` is a part of the terrain `t'`, in which `f` gives the places of its cells. -/
structure Terrain.IsPart (f : g.Node → h.Node) (t : Terrain g) (t' : Terrain h) : Prop where
  injective : Function.Injective f
  elevation_eq (v : g.Node) : h.elevation (f v) = g.elevation v
  down_perm (v : g.Node) : (t'.down.get (f v)).Perm ((t.down.get v).map f)
  up_perm (v : g.Node) : (t'.up.get (f v)).Perm ((t.up.get v).map f)

/-- What a trace comes to, its cells moved by `f`. -/
structure Trace.IsImage (f : g.Node → h.Node) (trace : Trace g) (trace' : Trace h) : Prop where
  summit_eq : trace'.summit = f trace.summit
  length_eq : trace'.length = trace.length
  lowest_eq : trace'.lowest = trace.lowest
  drop_eq : trace'.drop = trace.drop
  levels : List.Forall₂ (fun level level' => level'.Perm (level.map f)) trace.levels trace'.levels

namespace Terrain.IsPart

variable {t : Terrain g} {t' : Terrain h}

/-! ### Descents -/

private theorem descends_iff (hp : IsPart f t t') {v : g.Node} {w : h.Node} :
    t'.Descends (f v) w ↔ ∃ u, t.Descends v u ∧ f u = w := by
  rw [Descends, (hp.down_perm v).mem_iff, List.mem_map]
  rfl

theorem walk_iff (hp : IsPart f t t') {n : Nat} {v : g.Node} {w : h.Node} :
    Walk t'.Descends n (f v) w ↔ ∃ u, Walk t.Descends n v u ∧ f u = w := by
  induction n generalizing v with
  | zero => simp only [walk_zero_iff, exists_eq_left']
  | succ n ih =>
    simp only [walk_succ_iff, hp.descends_iff]
    constructor
    · rintro ⟨_, ⟨u, hd, rfl⟩, hw⟩
      obtain ⟨e, he, rfl⟩ := ih.mp hw
      exact ⟨e, ⟨u, hd, he⟩, rfl⟩
    · rintro ⟨e, ⟨u, hd, hw⟩, rfl⟩
      exact ⟨f u, ⟨u, hd, rfl⟩, ih.mpr ⟨e, hw, rfl⟩⟩

theorem longest_eq (hp : IsPart f t t') (hs : t.Sound) (hs' : t'.Sound) (v : g.Node) :
    t'.longest.get (f v) = t.longest.get v := by
  have hlengths : walkLengths t'.Descends (f v) = walkLengths t.Descends v := by
    ext n
    constructor
    · rintro ⟨_, hw⟩
      obtain ⟨u, hu, rfl⟩ := hp.walk_iff.mp hw
      exact ⟨u, hu⟩
    · rintro ⟨u, hw⟩
      exact ⟨f u, hp.walk_iff.mpr ⟨u, hw, rfl⟩⟩
  exact (hlengths ▸ hs'.height.isGreatest (f v)).unique (hs.height.isGreatest v)

theorem summit_eq (hp : IsPart f t t') (hs : t.Sound) (hs' : t'.Sound) (v : g.Node) :
    t'.summit.get (f v) = t.summit.get v := by
  have hup : t'.up.get (f v) = [] ↔ t.up.get v = [] := by
    rw [← List.length_eq_zero_iff, (hp.up_perm v).length_eq, List.length_map, List.length_eq_zero_iff]
  have hdown : t'.down.get (f v) = [] ↔ t.down.get v = [] := by
    rw [← List.length_eq_zero_iff, (hp.down_perm v).length_eq, List.length_map, List.length_eq_zero_iff]
  rw [Bool.eq_iff_iff, hs'.summit_iff, hs.summit_iff, hup, ne_eq, hdown]

/-! ### Traces -/

private theorem nextLevel_perm (hp : IsPart f t t') (hl : ∀ v, t'.longest.get (f v) = t.longest.get v) (rest : Nat)
    {level : List g.Node} {level' : List h.Node} (hlevel : level'.Perm (level.map f)) :
    (t'.nextLevel rest level').Perm ((t.nextLevel rest level).map f) := by
  have hnodup : ∀ {g : Grid} (t : Terrain g) (level : List g.Node), (t.nextLevel rest level).Nodup :=
    fun t level => (pairwise_nextLevel t rest level).imp fun hlt => ne_of_lt hlt
  rw [List.perm_ext_iff_of_nodup (hnodup t' level') ((hnodup t level).map hp.injective)]
  intro w
  simp only [mem_nextLevel, List.mem_map, hlevel.mem_iff]
  constructor
  · rintro ⟨⟨_, ⟨u, hu, rfl⟩, hw⟩, hrest⟩
    obtain ⟨v, hv, rfl⟩ := hp.descends_iff.mp hw
    exact ⟨v, ⟨⟨u, hu, hv⟩, hl v ▸ hrest⟩, rfl⟩
  · rintro ⟨v, ⟨⟨u, hu, hv⟩, hrest⟩, rfl⟩
    exact ⟨⟨f u, ⟨u, hu, rfl⟩, hp.descends_iff.mpr ⟨v, hv, rfl⟩⟩, (hl v).trans hrest⟩

private theorem forall₂_levelsBelow (hp : IsPart f t t') (hl : ∀ v, t'.longest.get (f v) = t.longest.get v) (n : Nat)
    {level : List g.Node} {level' : List h.Node} (hlevel : level'.Perm (level.map f)) :
    List.Forall₂ (fun level level' => level'.Perm (level.map f)) (t.levelsBelow n level) (t'.levelsBelow n level') := by
  induction n generalizing level level' with
  | zero => exact .nil
  | succ n ih =>
    have hnext := hp.nextLevel_perm hl n hlevel
    by_cases hnil : t.nextLevel n level = []
    · rw [hnil, List.map_nil, List.perm_nil] at hnext
      rw [levelsBelow, levelsBelow, hnil, hnext]
      exact .cons (.refl _) .nil
    · have hnil' : t'.nextLevel n level' ≠ [] := by
        intro heq
        rw [heq, List.nil_perm, List.map_eq_nil_iff] at hnext
        exact hnil hnext
      rw [levelsBelow_succ hnil, levelsBelow_succ hnil']
      exact .cons hnext (ih hnext)

private theorem lowest_eq (he : ∀ v, h.elevation (f v) = g.elevation v) (v : g.Node) {others : List g.Node}
    {others' : List h.Node} (hperm : others'.Perm (others.map f)) : h.lowest (f v) others' = g.lowest v others := by
  have helevations : {z | ∃ w ∈ f v :: others', h.elevation w = z} = {z | ∃ u ∈ v :: others, g.elevation u = z} := by
    ext z
    simp [hperm.mem_iff, he]
  exact (helevations ▸ isLeast_lowest (f v) others').unique (isLeast_lowest v others)

private theorem flatten_perm {levels : List (List g.Node)} {levels' : List (List h.Node)}
    (hlevels : List.Forall₂ (fun level level' => level'.Perm (level.map f)) levels levels') :
    levels'.flatten.Perm (levels.flatten.map f) := by
  induction hlevels with
  | nil => exact .refl _
  | cons hlevel _ ih =>
    rw [List.flatten_cons, List.flatten_cons, List.map_append]
    exact hlevel.append ih

theorem trace (hp : IsPart f t t') (hl : ∀ v, t'.longest.get (f v) = t.longest.get v) (v : g.Node) (length : Nat)
    (withLevels : Bool) : Trace.IsImage f (t.trace v length withLevels) (t'.trace (f v) length withLevels) := by
  have hfirst : [f v].Perm ([v].map f) := .refl _
  have hlevels := hp.forall₂_levelsBelow hl length hfirst
  have hlowest := lowest_eq hp.elevation_eq v (flatten_perm hlevels)
  refine ⟨rfl, rfl, hlowest, ?_, ?_⟩
  · show (h.elevation (f v) - h.lowest (f v) _).toNat = (g.elevation v - g.lowest v _).toNat
    rw [hlowest, hp.elevation_eq]
  · cases withLevels with
    | false => exact .nil
    | true => exact hlevels

/-! ### Edges and summits -/

theorem length_flatMap_down (hp : IsPart f t t') :
    ((g.nodes.map f).flatMap fun v => t'.down.get v).length = t.edgeCount := by
  have hlength : ∀ v, (t'.down.get (f v)).length = (t.down.get v).length := by
    intro v
    rw [(hp.down_perm v).length_eq, List.length_map]
  rw [edgeCount, List.flatMap_map, List.length_flatMap, List.length_flatMap]
  simp only [hlength]

theorem filter_summit (hp : IsPart f t t') (hs : t.Sound) (hs' : t'.Sound) :
    ((g.nodes.map f).filter fun v => t'.summit.get v) = t.summits.map f := by
  rw [summits, List.filter_map]
  congr 2
  funext v
  exact hp.summit_eq hs hs' v

theorem map_longest_summits (hp : IsPart f t t') (hs : t.Sound) (hs' : t'.Sound) :
    ((t.summits.map f).map fun v => t'.longest.get v) = t.summitLengths := by
  rw [summitLengths, List.map_map]
  apply List.map_congr_left
  intro v _
  exact hp.longest_eq hs hs' v

theorem exists_drop_iff (hp : IsPart f t t') {n : Nat} {d : Int} :
    (∃ v w, Walk t'.Descends n (f v) w ∧ h.elevation (f v) - h.elevation w = d) ↔ d ∈ t.drops n := by
  apply exists_congr
  intro v
  constructor
  · rintro ⟨_, hw, hd⟩
    obtain ⟨u, hu, rfl⟩ := hp.walk_iff.mp hw
    rw [hp.elevation_eq, hp.elevation_eq] at hd
    exact ⟨u, hu, hd⟩
  · rintro ⟨u, hw, hd⟩
    refine ⟨f u, hp.walk_iff.mpr ⟨u, hw, rfl⟩, ?_⟩
    rw [hp.elevation_eq, hp.elevation_eq]
    exact hd

end Terrain.IsPart

/-! ### Parts of a grid -/

/-- The grid `g` is a part of the grid `h`, in which `f` gives the places of its cells, and no step down crosses its
border. -/
structure Grid.IsPart (f : g.Node → h.Node) : Prop where
  injective : Function.Injective f
  elevation_eq (v : g.Node) : h.elevation (f v) = g.elevation v
  adjacent_iff (v u : g.Node) : h.Adjacent (f v) (f u) ↔ g.Adjacent v u
  level_border {v : g.Node} {w : h.Node} : h.Adjacent (f v) w → (∀ u, f u ≠ w) → h.elevation w = h.elevation (f v)

namespace Grid.IsPart

/-- A neighbour of the part at another elevation belongs to it. -/
private theorem exists_of_adjacent (hp : IsPart f) {v : g.Node} {w : h.Node} (hadj : h.Adjacent (f v) w)
    (hne : h.elevation w ≠ h.elevation (f v)) : ∃ u, f u = w := by
  apply Classical.byContradiction
  intro hout
  exact hne (hp.level_border hadj fun u hu => hout ⟨u, hu⟩)

private theorem stepsDown_iff (hp : IsPart f) {v u : g.Node} : h.StepsDown (f v) (f u) ↔ g.StepsDown v u := by
  rw [StepsDown, StepsDown, hp.adjacent_iff, hp.elevation_eq, hp.elevation_eq]

private theorem exists_of_stepsDown (hp : IsPart f) {v : g.Node} {w : h.Node} (hstep : h.StepsDown (f v) w) :
    ∃ u, f u = w :=
  hp.exists_of_adjacent hstep.1 (ne_of_lt hstep.2)

private theorem exists_of_stepsDown_to (hp : IsPart f) {v : g.Node} {w : h.Node} (hstep : h.StepsDown w (f v)) :
    ∃ u, f u = w :=
  hp.exists_of_adjacent hstep.1.symm (ne_of_gt hstep.2)

open Terrain in
theorem build (hp : IsPart f) : Terrain.IsPart f (build g) (build h) where
  injective := hp.injective
  elevation_eq := hp.elevation_eq
  down_perm v := by
    rw [List.perm_ext_iff_of_nodup (nodup_down_build _) ((nodup_down_build v).map hp.injective)]
    intro w
    have hmem : ∀ {g : Grid} {v u : g.Node}, u ∈ (Terrain.build g).down.get v ↔ g.StepsDown v u := descends_build
    simp only [List.mem_map, hmem]
    constructor
    · intro hstep
      obtain ⟨u, rfl⟩ := hp.exists_of_stepsDown hstep
      exact ⟨u, hp.stepsDown_iff.mp hstep, rfl⟩
    · rintro ⟨u, hstep, rfl⟩
      exact hp.stepsDown_iff.mpr hstep
  up_perm v := by
    rw [List.perm_ext_iff_of_nodup (nodup_up_build _) ((nodup_up_build v).map hp.injective)]
    intro w
    have hmem : ∀ {g : Grid} {v u : g.Node}, u ∈ (Terrain.build g).up.get v ↔ g.StepsDown u v :=
      (mem_up_iff Reachable.build.sound.toLinked).trans descends_build
    simp only [List.mem_map, hmem]
    constructor
    · intro hstep
      obtain ⟨u, rfl⟩ := hp.exists_of_stepsDown_to hstep
      exact ⟨u, hp.stepsDown_iff.mp hstep, rfl⟩
    · rintro ⟨u, hstep, rfl⟩
      exact hp.stepsDown_iff.mpr hstep

end Grid.IsPart

end Downhill
