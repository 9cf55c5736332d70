import PenPlotter.Mask

/-!
# Islands

An island is a sequence of pixels in the order they are drawn.  It is entered at its first pixel
and left at its last.  An empty island has neither and is never drawn.
-/

namespace PenPlotter

/-- Pixels in the order they are drawn. -/
structure Island where
  pixels : List Pixel
  deriving DecidableEq, Repr, Inhabited

namespace Island

/-- The pixel where drawing starts. -/
def first? (i : Island) : Option Pixel := i.pixels.head?

/-- The pixel where drawing ends. -/
def last? (i : Island) : Option Pixel := i.pixels.getLast?

/-- The number of pixels. -/
def size (i : Island) : Nat := i.pixels.length

/-- There is nothing to draw. -/
def isEmpty (i : Island) : Bool := i.pixels.isEmpty

end Island

end PenPlotter
