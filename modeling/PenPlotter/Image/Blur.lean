import PenPlotter.Image.Gray

/-!
# Gaussian blur

The blur replaces every level by a weighted mean of the levels around it.  The weights follow the
Gaussian of a given spread up to twice the spread away, and are scaled so that they sum to one.
The image is first blurred along its rows and then along its columns; beyond its edge it goes on
with the levels of its outermost cells.  Arithmetic is single precision throughout, and each pass
rounds its sums down to levels.
-/

namespace PenPlotter.Image.Blur

/-- How many cells to either side take part. -/
def radius (sigma : Float32) : Nat := (2 * sigma).ceil.toUInt64.toNat

/-- The ratio of the circumference of a circle to its diameter. -/
def circleRatio : Float32 := Float32.ofBits 0x40490fdb

/-- The Gaussian of spread `sigma`, so many cells from its peak. -/
def gaussian (sigma : Float32) (distance : Nat) : Float32 :=
  let x := Float32.ofNat distance
  (1 / (sigma * (2 * circleRatio).sqrt)) * (-(x * x) / (2 * (sigma * sigma))).exp

/-- The weights from the leftmost to the rightmost cell that takes part; they sum to one. -/
def weights (sigma : Float32) : Array Float32 :=
  let r := radius sigma
  let raw := (Array.range (2 * r + 1)).map fun k => gaussian sigma (if k < r then r - k else k - r)
  let total := raw.foldl (· + ·) 0
  raw.map (· / total)

/-- The level of a sum: what is below one is dark, and what is not below 255 is light. -/
def toLevel (x : Float32) : UInt8 :=
  if x < 255 then (if x > 0 then x.toUInt8 else 0) else 255

/-- The weighted sum of levels, the first of which is `level 0`. -/
def weightedSum (ws : Array Float32) (level : Nat → UInt8) : Float32 :=
  (ws.foldl (fun (s : Float32 × Nat) w =>
    (s.1 + Float32.ofNat (level s.2).toNat * w, s.2 + 1)) (0, 0)).1

/-- Blur along the rows. -/
def alongRows (ws : Array Float32) (g : Gray) : Gray :=
  let r : Int := (ws.size / 2 : Nat)
  Grid.tabulate g.width g.height fun x y =>
    toLevel (weightedSum ws fun k => g.nearestLevel (x + k - r) y)

/-- Blur along the columns. -/
def alongColumns (ws : Array Float32) (g : Gray) : Gray :=
  let r : Int := (ws.size / 2 : Nat)
  Grid.tabulate g.width g.height fun x y =>
    toLevel (weightedSum ws fun k => g.nearestLevel x (y + k - r))

end Blur

/-- Blur with a Gaussian of spread `sigma`. -/
def Gray.gaussianBlur (g : Gray) (sigma : Float32) : Gray :=
  let ws := Blur.weights sigma
  Blur.alongColumns ws (Blur.alongRows ws g)

theorem Gray.sides_gaussianBlur (g : Gray) (sigma : Float32) :
    (g.gaussianBlur sigma).width = g.width ∧ (g.gaussianBlur sigma).height = g.height :=
  ⟨rfl, rfl⟩

end PenPlotter.Image
