import PenPlotter.Island.Extraction
import PenPlotter.Plotter
import PenPlotter.Program
import PenPlotter.Tour

/-!
# Drawing islands

A *draft* is a program under construction together with the plotter as it will be after the
commands written so far.  Everything that draws extends a draft: it lifts or lowers the pen, turns
to a heading if the plotter does not face it yet, or walks to a pixel.

A walk goes by unit steps and looks anew before each one: it steps along the larger remaining
distance, and vertically when both are equal.  From the pixel where the two distances become equal
on, the walk therefore alternates between the axes.

`compileIslands` draws the islands of a tour from the origin: it lifts the pen, walks to the entry
of the island, lowers the pen, and walks through the rest of the pixels in their order.
-/

namespace PenPlotter

/-- A program under construction and the plotter after it. -/
structure Draft where
  plotter : PlotterState
  commands : Array Command

namespace Draft

/-- Nothing written yet. -/
def start (plotter : PlotterState) : Draft := ⟨plotter, #[]⟩

/-- Lift the pen. -/
def lift (d : Draft) : Draft :=
  { plotter := { d.plotter with pen := .up }, commands := d.commands.push .penUp }

/-- Lower the pen. -/
def lower (d : Draft) : Draft :=
  { plotter := { d.plotter with pen := .down }, commands := d.commands.push .penDown }

/-- Face a heading, with a turn only if one is needed. -/
def face (d : Draft) (h : Heading) : Draft :=
  { plotter := { d.plotter with heading := h }
    commands := match d.plotter.heading.turnTo? h with
      | none => d.commands
      | some t => d.commands.push (.rotate t) }

/-- Move one unit ahead. -/
def advance (d : Draft) : Draft :=
  { plotter := { d.plotter with position := d.plotter.position.step d.plotter.heading }
    commands := d.commands.push (.move 1) }

/-- Take one step of the way to a pixel. -/
def stepToward (d : Draft) (goal : Pixel) : Draft :=
  (d.face (d.plotter.position.headingTo goal)).advance

theorem position_stepToward (d : Draft) (goal : Pixel) :
    (d.stepToward goal).plotter.position
      = d.plotter.position.step (d.plotter.position.headingTo goal) := rfl

/-- Walk to a pixel, without touching the pen. -/
def walkTo (d : Draft) (goal : Pixel) : Draft :=
  if d.plotter.position = goal then d else (d.stepToward goal).walkTo goal
termination_by d.plotter.position.manhattan goal
decreasing_by
  have := Pixel.manhattan_step_headingTo (by assumption : ¬ d.plotter.position = goal)
  rw [position_stepToward]
  omega

/-- Travel to an island with the pen up and draw it with the pen down. -/
def drawIsland (d : Draft) (i : Island) : Draft :=
  match i.pixels with
  | [] => d
  | entry :: rest => rest.foldl walkTo ((d.lift.walkTo entry).lower)

/-- Draw islands one after the other. -/
def drawAll (d : Draft) (islands : List Island) : Draft := islands.foldl drawIsland d

end Draft

/-- The program that draws the given islands on a canvas, in the order of a tour from the
origin. -/
def compileIslands (islands : List Island) (dimensions : Dimensions) : Program where
  commands :=
    ((Draft.start .fresh).drawAll (planTour islands Pixel.origin)).commands.toList
  dimensions := dimensions

/-- The program that draws a mask. -/
def Mask.compile (m : Mask) : Program := compileIslands m.islands m.dimensions

end PenPlotter
