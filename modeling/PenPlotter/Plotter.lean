import PenPlotter.Heading

/-!
# The plotter

The plotter is a pen at a pixel, facing one of four ways, either marking or travelling.  A fresh
plotter stands at the origin, faces right and has its pen up.
-/

namespace PenPlotter

/-- Whether the pen marks or travels. -/
inductive Pen where
  | up
  | down
  deriving DecidableEq, Repr, Inhabited

/-- Where the plotter is, which way it faces, and its pen. -/
structure PlotterState where
  position : Pixel
  heading : Heading
  pen : Pen
  deriving DecidableEq, Repr, Inhabited

/-- The plotter before any command. -/
def PlotterState.fresh : PlotterState := ⟨Pixel.origin, .right, .up⟩

end PenPlotter
