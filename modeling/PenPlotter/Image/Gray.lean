import PenPlotter.Image.Grid

/-!
# Gray images

A gray image is a grid of levels from 0 (dark) to 255 (light).  An image is *binary* when it holds
no other level than these two; a binary image says of every cell whether it is *lit*.
-/

namespace PenPlotter.Image

/-- A grid of gray levels. -/
abbrev Gray := Grid UInt8

namespace Gray

/-- The level at a cell, 0 where there is none. -/
def level (g : Gray) (x y : Nat) : UInt8 := (g.at? x y).getD 0

/-- The level at the cell of the image that is nearest to a place on or beyond it. -/
def nearestLevel (g : Gray) (x y : Int) : UInt8 :=
  g.level (min x.toNat (g.width.toNat - 1)) (min y.toNat (g.height.toNat - 1))

/-- How many cells are lit. -/
def litCount (g : Gray) : Nat := g.cells.count 255

/-- The image holds the lowest and the highest level only. -/
def IsBinary (g : Gray) : Prop := ∀ v ∈ g.cells, v = 0 ∨ v = 255

/-- The image with light and dark exchanged. -/
def invert (g : Gray) : Gray := g.map fun v => 255 - v

/-- The level of a lit or of a dark cell. -/
def litLevel (lit : Bool) : UInt8 := if lit then 255 else 0

/-- The binary image whose lit cells are given. -/
def ofLit (width height : UInt32) (lit : Nat → Nat → Bool) : Gray :=
  Grid.tabulate width height fun x y => litLevel (lit x y)

theorem isBinary_ofLit (width height : UInt32) (lit : Nat → Nat → Bool) :
    IsBinary (ofLit width height lit) := by
  intro v hv
  obtain ⟨x, y, -, -, rfl⟩ := Grid.mem_cells_tabulate hv
  cases lit x y <;> simp [litLevel]

theorem isBinary_invert {g : Gray} (h : g.IsBinary) : g.invert.IsBinary := by
  intro v hv
  simp only [invert, Grid.map, Array.mem_map] at hv
  obtain ⟨u, hu, rfl⟩ := hv
  rcases h u hu with rfl | rfl <;> decide

end Gray

end PenPlotter.Image
