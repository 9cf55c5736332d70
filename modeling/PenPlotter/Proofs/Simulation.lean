import PenPlotter.Proofs.Walk
import PenPlotter.Replay

/-!
# Replaying what was drawn

A draft and a replay of its commands each keep a position, a heading and a pen.  They go together
(`Draft.Replays`): whatever extends the draft extends the record of the replay, and the turtle is
where the plotter is.  A walk puts its pixels on the leg that is open (`Replays.walkTo`), as long as
the bounds of the replay allow them.

**Main statement** (`Replays.drawIsland`): drawing an island adds its route as one stroke, and the
walk to its entry as one leg of travel unless the plotter is there already.

Before an island, the pen is down or the open leg has no points behind it (`Sketch.Ready`), so
lifting the pen starts a leg of travel where the plotter is, and leaves no other.
-/

namespace PenPlotter

namespace Leg

/-- The leg with more points. -/
def through (l : Leg) (ps : List Point) : Leg := ps.foldl extend l

@[simp] theorem pen_start (pen : Pen) (p : Point) : (start pen p).pen = pen := rfl

@[simp] theorem trail_start (pen : Pen) (p : Point) : (start pen p).trail = [] := rfl

@[simp] theorem through_nil (l : Leg) : l.through [] = l := rfl

theorem through_through (l : Leg) (ps qs : List Point) :
    (l.through ps).through qs = l.through (ps ++ qs) :=
  List.foldl_append.symm

theorem points_through (l : Leg) (ps : List Point) : (l.through ps).points = l.points ++ ps := by
  induction ps generalizing l with
  | nil => exact (List.append_nil _).symm
  | cons p ps ih =>
      rw [through, List.foldl_cons]
      exact (ih (l.extend p)).trans (by rw [points_extend, List.append_assoc]; rfl)

@[simp] theorem pen_through (l : Leg) (ps : List Point) : (l.through ps).pen = l.pen := by
  induction ps generalizing l with
  | nil => rfl
  | cons p ps ih => exact ih (l.extend p)

theorem length_trail (l : Leg) : l.trail.length + 1 = l.points.length := by
  simp [points]

theorem trail_through_start {pen : Pen} {p : Point} {ps : List Point} :
    ((start pen p).through ps).trail = [] ↔ ps = [] := by
  have h := length_trail ((start pen p).through ps)
  rw [points_through, points_start, List.length_append, List.length_singleton] at h
  rw [← List.length_eq_zero_iff, ← List.length_eq_zero_iff]
  omega

end Leg

/-- The turtle that stands for a plotter on the signed lattice. -/
def PlotterState.turtle (s : PlotterState) : Turtle := ⟨s.position.point, s.heading, s.pen⟩

namespace Sketch

theorem run_append {bounds : Option Dimensions} {cs ds : List Command} {s t : Sketch} :
    ∀ {index : Nat}, s.run bounds index cs = .ok t →
      s.run bounds index (cs ++ ds) = t.run bounds (index + cs.length) ds := by
  induction cs generalizing s with
  | nil =>
      intro index h
      cases h
      rfl
  | cons c cs ih =>
      intro index h
      rw [run] at h
      rw [List.cons_append, run]
      cases ho : s.obey bounds c with
      | error fault => rw [ho] at h; cases h
      | ok u =>
          rw [ho] at h
          simp only at h ⊢
          rw [ih h, List.length_cons, Nat.add_assoc, Nat.add_comm 1]

/-- One more command after a run. -/
theorem run_concat {bounds : Option Dimensions} {cs : List Command} {c : Command}
    {s t u : Sketch} {index : Nat} (h : s.run bounds index cs = .ok t)
    (ho : t.obey bounds c = .ok u) : s.run bounds index (cs ++ [c]) = .ok u := by
  rw [run_append h, run, ho]
  rfl

@[simp] theorem turtle_setPen (s : Sketch) (pen : Pen) :
    (s.setPen pen).turtle = s.turtle.setPen pen := by
  rw [setPen]
  split
  case isTrue h => rw [← h]; rfl
  case isFalse => rfl

/-- The record with more points on the open leg, at the end of which the turtle faces `heading`. -/
def along (s : Sketch) (heading : Heading) (ps : List Point) : Sketch :=
  { s with heading := heading, leg := s.leg.through ps }

theorem along_along (s : Sketch) (h k : Heading) (ps qs : List Point) :
    (s.along h ps).along k qs = s.along k (ps ++ qs) := by
  simp only [along, Leg.through_through]

/-! ### The legs of an island -/

/-- The pen is down, or the open leg has no points behind it. -/
def Ready (s : Sketch) : Prop := s.leg.pen = .down ∨ s.leg.trail = []

theorem strokes_eq (s : Sketch) :
    s.trace.strokes = (s.finished.reverse.filter fun l => l.pen = .down).map Leg.points ++
      if s.leg.pen = .down then [s.leg.points] else [] := by
  simp only [trace, legs, List.reverse_cons, List.filter_append, List.map_append]
  congr 1
  by_cases h : s.leg.pen = .down <;> simp [h]

theorem travel_eq (s : Sketch) :
    s.trace.travel =
      (s.finished.reverse.filter fun l => l.pen = .up ∧ l.trail ≠ []).map Leg.points ++
        if s.leg.pen = .up ∧ s.leg.trail ≠ [] then [s.leg.points] else [] := by
  simp only [trace, legs, List.reverse_cons, List.filter_append, List.map_append]
  congr 1
  by_cases h : s.leg.pen = .up ∧ s.leg.trail ≠ [] <;> simp [h]

theorem leg_setPen_up {s : Sketch} (h : s.Ready) :
    (s.setPen .up).leg = Leg.start .up s.leg.tip := by
  obtain ⟨heading, ⟨pen, tip, trail⟩, finished⟩ := s
  rcases h with h | h
  · obtain rfl : pen = .down := h
    rfl
  · obtain rfl : trail = [] := h
    cases pen <;> rfl

/-- Lifting the pen of a record that is ready changes no leg of its trace. -/
theorem trace_setPen_up {s : Sketch} (h : s.Ready) :
    (s.setPen .up).trace.strokes = s.trace.strokes ∧
      (s.setPen .up).trace.travel = s.trace.travel := by
  by_cases hpen : s.leg.pen = .up
  · rw [setPen, if_pos hpen]
    exact ⟨rfl, rfl⟩
  · have hdown : s.leg.pen = .down := by
      cases hp : s.leg.pen with
      | up => exact absurd hp hpen
      | down => rfl
    rw [strokes_eq, travel_eq, strokes_eq s, travel_eq s, leg_setPen_up h, setPen, if_neg hpen]
    constructor
    · simp [hdown]
    · simp [hdown]

/-- The record after an island: the pen is lifted, travels, is lowered, and draws. -/
def drawn (s : Sketch) (h k : Heading) (way trail : List Point) : Sketch :=
  (((s.setPen .up).along h way).setPen .down).along k trail

theorem drawn_eq {s : Sketch} (hs : s.Ready) (h k : Heading) (way trail : List Point) :
    s.drawn h k way trail =
      { heading := k
        leg := (Leg.start .down ((s.setPen .up).along h way).leg.tip).through trail
        finished := (Leg.start .up s.leg.tip).through way :: (s.setPen .up).finished } := by
  have hup : ((s.setPen .up).along h way).leg = (Leg.start .up s.leg.tip).through way := by
    rw [along, leg_setPen_up hs]
  have hopen : ¬ ((s.setPen .up).along h way).leg.pen = .down := by
    rw [hup, Leg.pen_through, Leg.pen_start]
    decide
  rw [drawn, setPen, if_neg hopen, ← hup]
  rfl

theorem ready_drawn {s : Sketch} (hs : s.Ready) (h k : Heading) (way trail : List Point) :
    (s.drawn h k way trail).Ready := by
  rw [drawn_eq hs]
  exact .inl (Leg.pen_through _ _)

/-- An island adds one stroke. -/
theorem strokes_drawn {s : Sketch} (hs : s.Ready) (h k : Heading) (way trail : List Point) :
    (s.drawn h k way trail).trace.strokes =
      s.trace.strokes ++ [((s.setPen .up).along h way).leg.tip :: trail] := by
  rw [← (trace_setPen_up hs).1, strokes_eq, strokes_eq, drawn_eq hs, leg_setPen_up hs]
  simp [Leg.points_through, Leg.points_start]

/-- An island adds the travel to its entry, if there is any. -/
theorem travel_drawn {s : Sketch} (hs : s.Ready) (h k : Heading) (way trail : List Point) :
    (s.drawn h k way trail).trace.travel =
      s.trace.travel ++ if way = [] then [] else [s.leg.tip :: way] := by
  rw [← (trace_setPen_up hs).2, travel_eq, travel_eq, drawn_eq hs, leg_setPen_up hs]
  by_cases hway : way = []
  · simp [hway]
  · have htrail : ((Leg.start .up s.leg.tip).through way).trail ≠ [] := fun he =>
      hway (Leg.trail_through_start.mp he)
    simp [hway, htrail, Leg.points_through, Leg.points_start]

end Sketch

namespace Draft

/-- Obeying the commands of the draft leads a replay from `source` to `s`, and the turtle is where
the plotter is. -/
structure Replays (bounds : Option Dimensions) (source : Sketch) (d : Draft) (s : Sketch) :
    Prop where
  run : source.run bounds 0 d.commands.toList = .ok s
  turtle : s.turtle = d.plotter.turtle

namespace Replays

variable {bounds : Option Dimensions} {source s : Sketch} {d : Draft}

theorem start {plotter : PlotterState} (h : source.turtle = plotter.turtle) :
    Replays bounds source (Draft.start plotter) source :=
  ⟨rfl, h⟩

theorem heading_eq (h : Replays bounds source d s) : s.heading = d.plotter.heading :=
  congrArg Turtle.heading h.turtle

theorem tip_eq (h : Replays bounds source d s) : s.leg.tip = d.plotter.position.point :=
  congrArg Turtle.position h.turtle

theorem lift (h : Replays bounds source d s) : Replays bounds source d.lift (s.setPen .up) := by
  refine ⟨?_, by rw [Sketch.turtle_setPen, h.turtle]; rfl⟩
  rw [Draft.lift, Array.toList_push]
  exact Sketch.run_concat h.run rfl

theorem lower (h : Replays bounds source d s) :
    Replays bounds source d.lower (s.setPen .down) := by
  refine ⟨?_, by rw [Sketch.turtle_setPen, h.turtle]; rfl⟩
  rw [Draft.lower, Array.toList_push]
  exact Sketch.run_concat h.run rfl

theorem face (h : Replays bounds source d s) (heading : Heading) :
    Replays bounds source (d.face heading) { s with heading := heading } := by
  obtain ⟨hpos, hhead, hpen⟩ := Turtle.mk.inj h.turtle
  refine ⟨?_, by simp only [Sketch.turtle, Draft.face, PlotterState.turtle, hpos, hpen]⟩
  rw [Draft.face]
  cases ht : d.plotter.heading.turnTo? heading with
  | none =>
      have hsame := Heading.turnTo?_eq_none_iff.mp ht
      rw [← hsame, ← hhead]
      exact h.run
  | some turn =>
      simp only [Array.toList_push]
      refine Sketch.run_concat h.run ?_
      rw [Sketch.obey, hhead, Heading.rotate?_turnTo? ht]

/-- A step toward a goal puts the pixel it arrives at on the open leg. -/
theorem advance {p : Pixel} (h : Replays bounds source d s)
    (hp : d.plotter.position.step d.plotter.heading = p) (hs : s.turtle.ahead = p.point)
    (hallow : Allows bounds p.point) :
    Replays bounds source d.advance { s with leg := s.leg.extend p.point } := by
  obtain ⟨hpos, hhead, hpen⟩ := Turtle.mk.inj h.turtle
  refine ⟨?_, ?_⟩
  · rw [Draft.advance, Array.toList_push]
    refine Sketch.run_concat h.run ?_
    have hone : (1 : UInt32).toNat = 0 + 1 := rfl
    rw [Sketch.obey, if_neg (by decide), hone, Sketch.walk, hs, if_pos hallow, Sketch.walk]
  · simp only [Sketch.turtle, Leg.extend, Draft.advance, PlotterState.turtle, hp, hhead, hpen]

theorem stepToward {goal : Pixel} (h : Replays bounds source d s)
    (hne : d.plotter.position ≠ goal)
    (hallow : Allows bounds (d.plotter.position.step (d.plotter.position.headingTo goal)).point) :
    Replays bounds source (d.stepToward goal)
      (s.along (d.plotter.position.headingTo goal)
        [(d.plotter.position.step (d.plotter.position.headingTo goal)).point]) := by
  refine (h.face (d.plotter.position.headingTo goal)).advance rfl ?_ hallow
  rw [Pixel.point_step (Pixel.wayAlong_headingTo_pos hne), ← h.tip_eq]
  rfl

/-- **A walk puts its pixels on the open leg.** -/
theorem walkTo {goal : Pixel} (h : Replays bounds source d s)
    (hallow : ∀ r ∈ d.plotter.position.way goal, Allows bounds r.point) :
    Replays bounds source (d.walkTo goal)
      (s.along (d.walkTo goal).plotter.heading ((d.plotter.position.way goal).map Pixel.point)) := by
  fun_induction Draft.walkTo d goal generalizing s with
  | case1 d heq =>
      rw [heq, Pixel.way_self, ← h.heading_eq]
      exact h
  | case2 d hne ih =>
      rw [Pixel.way_of_ne hne, List.forall_mem_cons] at hallow
      rw [Pixel.way_of_ne hne, List.map_cons, ← List.singleton_append, ← Sketch.along_along]
      exact ih (h.stepToward hne hallow.1) hallow.2

/-- A walk through pixels puts its trail on the open leg. -/
theorem foldl_walkTo {goals : List Pixel} (h : Replays bounds source d s)
    (hallow : ∀ r ∈ Pixel.trail d.plotter.position goals, Allows bounds r.point) :
    Replays bounds source (goals.foldl Draft.walkTo d)
      (s.along (goals.foldl Draft.walkTo d).plotter.heading
        ((Pixel.trail d.plotter.position goals).map Pixel.point)) := by
  induction goals generalizing d s with
  | nil =>
      rw [List.foldl_nil, ← h.heading_eq]
      exact h
  | cons goal goals ih =>
      rw [Pixel.trail, List.forall_mem_append] at hallow
      have hnext := h.walkTo hallow.1
      rw [List.foldl_cons, Pixel.trail, List.map_append, ← Sketch.along_along]
      have hpos := d.position_walkTo goal
      have := ih hnext (by rw [hpos]; exact hallow.2)
      rwa [hpos] at this

/-- **An island adds a stroke**, and the travel to its entry if the plotter is not there already. -/
theorem drawIsland {i : Island} {entry : Pixel} {rest : List Pixel}
    (h : Replays bounds source d s) (hs : s.Ready) (hi : i.pixels = entry :: rest)
    (hway : ∀ r ∈ d.plotter.position.way entry, Allows bounds r.point)
    (htrail : ∀ r ∈ Pixel.trail entry rest, Allows bounds r.point) :
    ∃ t, Replays bounds source (d.drawIsland i) t ∧ t.Ready ∧
      t.trace.strokes = s.trace.strokes ++ [(Pixel.route i.pixels).map Pixel.point] ∧
      t.trace.travel = s.trace.travel ++
        if d.plotter.position = entry then []
        else [(d.plotter.position :: d.plotter.position.way entry).map Pixel.point] := by
  have hwalk := h.lift.walkTo hway
  have hpos : (d.lift.walkTo entry).lower.plotter.position = entry := d.lift.position_walkTo entry
  have hdrawn := hwalk.lower.foldl_walkTo (by rw [hpos]; exact htrail)
  rw [hpos] at hdrawn
  refine ⟨_, by rw [Draft.drawIsland, hi]; exact hdrawn, Sketch.ready_drawn hs _ _ _ _, ?_, ?_⟩
  · refine (Sketch.strokes_drawn hs _ _ _ _).trans ?_
    rw [hwalk.tip_eq, d.lift.position_walkTo, hi]
    rfl
  · refine (Sketch.travel_drawn hs _ _ _ _).trans ?_
    have hnil : (d.lift.plotter.position.way entry).map Pixel.point = [] ↔
        d.plotter.position = entry := List.map_eq_nil_iff.trans Pixel.way_eq_nil_iff
    simp only [hnil, h.tip_eq]
    rfl

end Replays

end Draft

end PenPlotter
