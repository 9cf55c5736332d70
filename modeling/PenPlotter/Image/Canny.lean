import PenPlotter.Image.Blur
import PenPlotter.Mask

/-!
# Canny edge detection

Edges are found in four steps.

* The image is blurred a little.
* Every cell gets a gradient by the two 3×3 Sobel filters, the image going on beyond its edge with
  its outermost cells.  Its strength is kept as the sum of the squares of the components, a
  natural number: the root is increasing, so comparing squares is comparing strengths.
* A cell is *thinned* out unless no neighbour across the edge is stronger.  The two neighbours
  are those in the direction of the gradient, rounded to the nearest eighth of a circle; the
  components tell it exactly, since an angle is less than a sixteenth of a circle off an axis
  where the sum of the components is less than the root of two times the larger.  Cells at the
  border of the image are never edges.
* What is strong enough by the high threshold is an edge, and so is what is strong enough by the
  low threshold and can be *reached* from such a cell.  The search goes to six of the eight
  neighbours: it looks neither straight up nor up to the right.
-/

namespace PenPlotter.Image.Canny

/-- The spread of the blur that goes before edge detection. -/
def spread : Float32 := 1.4

/-! ### Gradients -/

/-- The weighted sum of the levels around a place; the weights go row by row. -/
def sobel (g : Gray) (weights : List Int) (x y : Nat) : Int :=
  let offsets : List (Int × Int) :=
    [(-1, -1), (0, -1), (1, -1), (-1, 0), (0, 0), (1, 0), (-1, 1), (0, 1), (1, 1)]
  (weights.zip offsets).foldl (fun total (w, dx, dy) =>
    total + w * (g.nearestLevel (x + dx) (y + dy)).toNat) 0

/-- The horizontal and the vertical component of the gradient. -/
def gradient (g : Gray) (x y : Nat) : Int × Int :=
  (sobel g [-1, 0, 1, -2, 0, 2, -1, 0, 1] x y, sobel g [-1, -2, -1, 0, 0, 0, 1, 2, 1] x y)

/-- The square of the length of a gradient. -/
def squaredLength (d : Int × Int) : Nat := d.1.natAbs * d.1.natAbs + d.2.natAbs * d.2.natAbs

/-- The direction of a gradient, rounded to the nearest eighth of a circle; opposite directions
are the same. -/
inductive Direction where
  | horizontal
  | falling
  | vertical
  | rising
  deriving DecidableEq, Repr

/-- Less than a sixteenth of a circle off the axis of the larger component. -/
def nearAxis (large small : Nat) : Prop := (large + small) * (large + small) < 2 * large * large

instance (large small : Nat) : Decidable (nearAxis large small) :=
  inferInstanceAs (Decidable (_ < _))

/-- The direction of a gradient. -/
def direction (d : Int × Int) : Direction :=
  let across := d.1.natAbs
  let down := d.2.natAbs
  if nearAxis across down then .horizontal
  else if nearAxis down across then .vertical
  else if d.1 < 0 ↔ d.2 < 0 then .falling
  else .rising

/-- The two neighbours of an inner cell in a direction. -/
def acrossEdge (x y : Nat) : Direction → List (Nat × Nat)
  | .horizontal => [(x - 1, y), (x + 1, y)]
  | .falling => [(x + 1, y + 1), (x - 1, y - 1)]
  | .vertical => [(x, y - 1), (x, y + 1)]
  | .rising => [(x - 1, y + 1), (x + 1, y - 1)]

/-- The squared strengths of the cells that are not thinned out, and 0 elsewhere. -/
def thinned (g : Gray) : Grid Nat :=
  let gradients := Grid.tabulate g.width g.height (gradient g)
  let strengths := gradients.map squaredLength
  let strength (x y : Nat) : Nat := (strengths.at? x y).getD 0
  Grid.tabulate g.width g.height fun x y =>
    let inner := 1 ≤ x ∧ x + 1 < g.width.toNat ∧ 1 ≤ y ∧ y + 1 < g.height.toNat
    let own := strength x y
    let d := direction ((gradients.at? x y).getD (0, 0))
    if inner ∧ (acrossEdge x y d).all fun (u, v) => strength u v ≤ own then own else 0

/-! ### Linking -/

/-- A search in progress: the cells not reached yet, and those to look around. -/
structure Linking where
  unreached : Mask
  stack : List Pixel

namespace Linking

/-- Reach a cell, unless it has been reached or cannot be. -/
def reach (s : Linking) (p : Pixel) : Linking :=
  match s with
  | ⟨unreached, stack⟩ =>
    if unreached.get p then ⟨unreached.erase p, p :: stack⟩ else ⟨unreached, stack⟩

/-- The neighbours that a search goes on to. -/
def around (p : Pixel) : List Pixel :=
  [⟨p.x + 1, p.y⟩, ⟨p.x + 1, p.y + 1⟩, ⟨p.x, p.y + 1⟩, ⟨p.x - 1, p.y - 1⟩, ⟨p.x - 1, p.y⟩,
    ⟨p.x - 1, p.y + 1⟩]

theorem weight_reach (s : Linking) (p : Pixel) :
    2 * (s.reach p).unreached.inkCount + (s.reach p).stack.length
      ≤ 2 * s.unreached.inkCount + s.stack.length := by
  obtain ⟨unreached, stack⟩ := s
  simp only [reach]
  split
  case isTrue h =>
    have := Mask.inkCount_erase h
    simp only [List.length_cons]
    omega
  case isFalse => exact Nat.le_refl _

theorem weight_reachAll (ps : List Pixel) (s : Linking) :
    2 * (ps.foldl reach s).unreached.inkCount + (ps.foldl reach s).stack.length
      ≤ 2 * s.unreached.inkCount + s.stack.length := by
  induction ps generalizing s with
  | nil => exact Nat.le_refl _
  | cons p ps ih => exact Nat.le_trans (ih (s.reach p)) (weight_reach s p)

/-- The cells that are left unreached when there is nothing to look around. -/
def finish (s : Linking) : Mask :=
  match s with
  | ⟨unreached, []⟩ => unreached
  | ⟨unreached, p :: stack⟩ => finish ((around p).foldl reach ⟨unreached, stack⟩)
termination_by 2 * s.unreached.inkCount + s.stack.length
decreasing_by
  have := weight_reachAll (around p) ⟨unreached, stack⟩
  simp only [List.length_cons] at this ⊢
  omega

end Linking

/-- The cells of `weak` that are not reached from those of `strong`. -/
def unlinked (weak : Mask) (strong : List Pixel) : Mask :=
  (strong.foldl Linking.reach ⟨weak, []⟩).finish

/-- The binary image whose lit cells are the strong cells and the weak cells linked to them. -/
def link (strengths : Grid Nat) (isWeak isStrong : Nat → Bool) : Gray :=
  match Mask.ofCells strengths.width strengths.height
      (strengths.cells.map fun n => isWeak n || isStrong n) with
  | .error _ => Gray.ofLit strengths.width strengths.height fun _ _ => false
  | .ok weak =>
    let strong := weak.inked.filter fun p =>
      isStrong ((strengths.at? p.x.toNat p.y.toNat).getD 0)
    let rest := unlinked weak strong
    Gray.ofLit strengths.width strengths.height fun x y =>
      let p : Pixel := ⟨UInt32.ofNat x, UInt32.ofNat y⟩
      weak.get p && !rest.get p

end Canny

/-- The edges of an image as a binary image: those of strength at least `high`, and those of
strength at least `low` that are linked to them. -/
def Gray.canny (g : Gray) (low high : Float32) : Gray :=
  let atLeast (threshold : Float32) (squared : Nat) : Bool :=
    decide (threshold ≤ (Float32.ofNat squared).sqrt)
  Canny.link (Canny.thinned (g.gaussianBlur Canny.spread)) (atLeast low) (atLeast high)

theorem Gray.isBinary_canny (g : Gray) (low high : Float32) : (g.canny low high).IsBinary := by
  simp only [canny, Canny.link]
  split <;> exact isBinary_ofLit _ _ _

theorem Gray.sides_canny (g : Gray) (low high : Float32) :
    (g.canny low high).width = g.width ∧ (g.canny low high).height = g.height := by
  simp only [canny, Canny.link]
  split <;> exact ⟨rfl, rfl⟩

end PenPlotter.Image
