import PenPlotter.Proofs.Simulation
import PenPlotter.Proofs.Tour

/-!
# What a drawing of islands leaves behind

The *stroke* of an island is the walk through its pixels in their order.  The *crossings* of a tour
are the ways between its islands, from where the plotter is to the entry of the first and from the
exit of each to the entry of the next; a crossing that goes nowhere leaves no travel.

`Replays.drawAll` puts the strokes and the crossings of a list of islands together, within any
bounds that allow the rectangles their pixels span.

**Main statement** (`replay_compileIslands`): the replay of a compiled program has one stroke for
every island of the tour and one leg of travel for every crossing that goes somewhere; the turtle
ends as the plotter does, and is where the tour is at every selection.
-/

namespace PenPlotter

/-- The points of the walk through the pixels of the island. -/
def Island.stroke (i : Island) : List Point := (Pixel.route i.pixels).map Pixel.point

/-- The points of the walk from `p` to `q`, both included. -/
def Pixel.journey (p q : Pixel) : List Point := (p :: p.way q).map Pixel.point

/-- The ways between islands: from the position to the entry of the first, and from the exit of each
to the entry of the next. -/
def crossings (position : Pixel) : List Island → List (Pixel × Pixel)
  | [] => []
  | i :: is => (i.first?.map (position, ·)).toList ++ crossings (Pool.after position i) is

/-- The travel along ways; one that ends where it starts leaves none. -/
def travelAlong (ways : List (Pixel × Pixel)) : List (List Point) :=
  (ways.filter fun w => w.1 ≠ w.2).map fun w => w.1.journey w.2

/-- The bounds allow every pixel of the rectangles that the given pixels span. -/
def Spans (bounds : Option Dimensions) (ps : List Pixel) : Prop :=
  ∀ a ∈ ps, ∀ b ∈ ps, ∀ r, Pixel.Between a b r → Allows bounds r.point

theorem spans_none (ps : List Pixel) : Spans none ps := by
  intro a _ b _ r _ d hd
  cases hd

theorem Spans.mono {bounds : Option Dimensions} {ps qs : List Pixel} (h : Spans bounds qs)
    (hsub : ps ⊆ qs) : Spans bounds ps :=
  fun a ha b hb => h a (hsub ha) b (hsub hb)

theorem Pool.after_mem {position : Pixel} {i : Island} (h : i.isEmpty = false) :
    Pool.after position i ∈ i.pixels ∧ i.last? = some (Pool.after position i) := by
  obtain ⟨entry, hentry⟩ := Island.exists_first?_of_isEmpty h
  have hne : i.pixels ≠ [] := List.ne_nil_of_mem (List.mem_of_head? hentry)
  have hlast : i.last? = some (i.pixels.getLast hne) := List.getLast?_eq_some_getLast hne
  rw [Pool.after, hlast]
  exact ⟨List.getLast_mem hne, rfl⟩

namespace Draft

namespace Replays

variable {bounds : Option Dimensions} {source s : Sketch} {d : Draft}

/-- **Drawing islands leaves their strokes and the travel along their crossings.** -/
theorem drawAll {islands : List Island} (h : Replays bounds source d s) (hs : s.Ready)
    (hi : ∀ i ∈ islands, i.isEmpty = false)
    (hb : Spans bounds (d.plotter.position :: islands.flatMap Island.pixels)) :
    ∃ t, Replays bounds source (d.drawAll islands) t ∧
      t.trace.strokes = s.trace.strokes ++ islands.map Island.stroke ∧
      t.trace.travel = s.trace.travel ++ travelAlong (crossings d.plotter.position islands) := by
  induction islands generalizing d s with
  | nil => exact ⟨s, h, (List.append_nil _).symm, (List.append_nil _).symm⟩
  | cons i is ih =>
      obtain ⟨hpix, hi⟩ := List.forall_mem_cons.mp hi
      obtain ⟨entry, hentry⟩ := Island.exists_first?_of_isEmpty hpix
      obtain ⟨rest, hrest⟩ := List.head?_eq_some_iff.mp hentry
      have hisland : i.pixels ⊆ d.plotter.position :: (i :: is).flatMap Island.pixels := by
        intro p hp
        simp [hp]
      obtain ⟨t, ht, hready, hstrokes, htravel⟩ := h.drawIsland hs hrest
        (fun r hr => hb _ List.mem_cons_self _ (hisland (List.mem_of_head? hentry)) r
          (Pixel.between_of_mem_way hr))
        (Pixel.forall_mem_trail (hrest ▸ hb.mono hisland))
      -- The next way starts at the exit of this island, which is one of its pixels.
      have hspans : Spans bounds
          ((d.drawIsland i).plotter.position :: is.flatMap Island.pixels) := by
        refine hb.mono (List.cons_subset.mpr ⟨?_, ?_⟩)
        · rw [position_drawIsland]
          exact hisland (Pool.after_mem hpix).1
        · intro p hp
          rw [List.flatMap_cons]
          exact List.mem_cons_of_mem _ (List.mem_append_right _ hp)
      obtain ⟨u, hu, hstrokes', htravel'⟩ := ih ht hready hi hspans
      refine ⟨u, hu, ?_, ?_⟩
      · rw [hstrokes', hstrokes, List.append_assoc]
        rfl
      · rw [htravel', htravel, List.append_assoc, position_drawIsland, crossings, hentry]
        by_cases he : d.plotter.position = entry
        · simp [travelAlong, he]
        · simp [travelAlong, he, Pixel.journey]

end Replays

/-- The plotter after some islands is at the exit of the last, with the pen down. -/
theorem plotter_drawAll {d : Draft} {islands : List Island} {i : Island}
    (hi : ∀ i ∈ islands, i.isEmpty = false) (hlast : islands.getLast? = some i) :
    i.last? = some (d.drawAll islands).plotter.position ∧
      (d.drawAll islands).plotter.pen = .down := by
  have hpix := hi i (List.mem_of_getLast? hlast)
  obtain ⟨is, rfl⟩ := List.getLast?_eq_some_iff.mp hlast
  rw [drawAll_append]
  exact ⟨(position_drawIsland _ i).symm ▸ (Pool.after_mem hpix).2, pen_drawIsland hpix⟩

end Draft

/-! ### Compiled programs -/

/-- The drawing of islands by a fresh plotter. -/
def Draft.ofIslands (islands : List Island) : Draft := (Draft.start .fresh).drawAll islands

theorem replayIn_ofIslands {bounds : Option Dimensions} {islands : List Island}
    (hi : ∀ i ∈ islands, i.isEmpty = false)
    (hb : Spans bounds (Pixel.origin :: islands.flatMap Island.pixels)) :
    ∃ t, replayIn bounds (Draft.ofIslands islands).commands.toList = .ok t ∧
      t.strokes = islands.map Island.stroke ∧
      t.travel = travelAlong (crossings Pixel.origin islands) ∧
      t.turtle = (Draft.ofIslands islands).plotter.turtle := by
  have hstart : Draft.Replays bounds .fresh (Draft.start .fresh) .fresh := .start rfl
  obtain ⟨s, hs, hstrokes, htravel⟩ := hstart.drawAll (.inr rfl) hi hb
  refine ⟨s.trace, ?_, hstrokes, htravel, hs.turtle⟩
  rw [replayIn, Draft.ofIslands, hs.run]
  rfl

/-- **A compiled program draws its tour.**  Its replay succeeds.  There is one stroke for every
island of the tour, the walk through the pixels of the island in their order, and one leg of travel
for every crossing that goes somewhere.  The turtle ends where the plotter does, facing the same way
with the pen in the same place: at the exit of the last island with the pen down, or as it began if
there is no island.  At every selection of the tour, the tour, the plotter, and the turtle that has
replayed the commands so far are at the same pixel. -/
theorem replay_compileIslands (islands : List Island) (dimensions : Dimensions) :
    ∃ t, replay (compileIslands islands dimensions).commands = .ok t ∧
      t.strokes = (planTour islands Pixel.origin).map Island.stroke ∧
      t.travel = travelAlong (crossings Pixel.origin (planTour islands Pixel.origin)) ∧
      t.turtle = (Draft.ofIslands (planTour islands Pixel.origin)).plotter.turtle ∧
      (planTour islands Pixel.origin = [] → t.turtle = .fresh) ∧
      (∀ i ∈ (planTour islands Pixel.origin).getLast?, ∃ exit, i.last? = some exit ∧
        t.turtle.position = exit.point ∧ t.turtle.pen = .down) ∧
      ∀ chosen u, Tour.Run (Tour.start islands Pixel.origin) chosen u →
        (Draft.ofIslands (chosen.map Selection.island)).commands.toList <+:
            (compileIslands islands dimensions).commands ∧
          (Draft.ofIslands (chosen.map Selection.island)).plotter.position = u.position ∧
          ∃ v, replay (Draft.ofIslands (chosen.map Selection.island)).commands.toList = .ok v ∧
            v.turtle.position = u.position.point := by
  have hdrawable : ∀ i ∈ planTour islands Pixel.origin, i.isEmpty = false :=
    fun i hi => isEmpty_of_mem_planTour hi
  obtain ⟨t, ht, hstrokes, htravel, hturtle⟩ := replayIn_ofIslands hdrawable (spans_none _)
  refine ⟨t, ht, hstrokes, htravel, hturtle, ?_, ?_, ?_⟩
  · intro hnil
    rw [hturtle, hnil]
    rfl
  · intro i hi
    obtain ⟨hexit, hpen⟩ := Draft.plotter_drawAll (d := .start .fresh) hdrawable hi
    rw [hturtle]
    exact ⟨_, hexit, rfl, hpen⟩
  · intro chosen u hu
    have hsplit : planTour islands Pixel.origin =
        chosen.map Selection.island ++ u.selections.map Selection.island := by
      rw [planTour, hu.selections, List.map_append]
    have hpos : (Draft.ofIslands (chosen.map Selection.island)).plotter.position = u.position := by
      rw [Draft.ofIslands, Draft.position_drawAll, hu.position]
      rfl
    have hchosen : ∀ i ∈ chosen.map Selection.island, i.isEmpty = false := fun i hi =>
      hdrawable i (hsplit ▸ List.mem_append_left _ hi)
    obtain ⟨v, hv, -, -, hv'⟩ := replayIn_ofIslands hchosen (spans_none _)
    refine ⟨?_, hpos, v, hv, ?_⟩
    · rw [compileIslands, hsplit, Draft.drawAll_append]
      exact Draft.extends_drawAll _ _
    · rw [hv', ← hpos]
      rfl

end PenPlotter
