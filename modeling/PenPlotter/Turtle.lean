import PenPlotter.Plotter

/-!
# The turtle

A turtle is a plotter on the signed lattice: nothing stops it at the edge of a canvas.  It turns
by multiples of 90 degrees and takes unit steps along its heading.
-/

namespace PenPlotter

/-- A pen on the signed lattice, facing one of four ways. -/
structure Turtle where
  position : Point
  heading : Heading
  pen : Pen
  deriving DecidableEq, Repr, Inhabited

namespace Turtle

/-- A turtle at the origin, facing right with the pen up. -/
def fresh : Turtle := ⟨(0, 0), .right, .up⟩

/-- The turtle after a turn by signed degrees; none if that is no multiple of 90. -/
def rotate? (t : Turtle) (degrees : Int16) : Option Turtle :=
  (t.heading.rotate? degrees).map fun h => { t with heading := h }

/-- The point one unit step ahead. -/
def ahead (t : Turtle) : Point :=
  (t.position.1 + t.heading.unitStep.1, t.position.2 + t.heading.unitStep.2)

/-- The turtle one unit step ahead. -/
def step (t : Turtle) : Turtle := { t with position := t.ahead }

/-- The turtle with its pen up or down. -/
def setPen (t : Turtle) (pen : Pen) : Turtle := { t with pen := pen }

end Turtle

end PenPlotter
