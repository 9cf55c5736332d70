/-!
# Pixels and the lattice they lie on

A *pixel* names a cell of an image by its column and row; `x` grows to the right and `y` grows
downward, as image rows do.  Columns and rows are 32-bit words, so a pixel is always a cell of
some canvas.  A *point* is a place on the signed lattice the plotter walks on, which extends
beyond every canvas; `Pixel.point` places a pixel there.

Two distances are used.  `Pixel.chebyshev` is the larger of the two coordinate differences and
ranks the islands of a tour; `Pixel.manhattan` is their sum and counts the unit steps of a walk.
-/

namespace PenPlotter

/-- A cell of an image: column `x`, row `y`. -/
structure Pixel where
  x : UInt32
  y : UInt32
  deriving DecidableEq, Repr, Inhabited

/-- The size of a canvas in pixels. -/
structure Dimensions where
  width : UInt32
  height : UInt32
  deriving DecidableEq, Repr, Inhabited

/-- A place on the signed lattice. -/
abbrev Point := Int × Int

/-- The difference of two words, whichever is larger. -/
def absDiff (a b : UInt32) : UInt32 := if a < b then b - a else a - b

theorem toNat_absDiff (a b : UInt32) :
    (absDiff a b).toNat = (a.toNat - b.toNat) + (b.toNat - a.toNat) := by
  have ha := a.toNat_lt
  have hb := b.toNat_lt
  unfold absDiff
  split
  case isTrue h =>
    have h' : a.toNat < b.toNat := UInt32.lt_iff_toNat_lt.mp h
    rw [UInt32.toNat_sub_of_le _ _ (UInt32.le_iff_toNat_le.mpr (by omega))]
    omega
  case isFalse h =>
    have h' : ¬ a.toNat < b.toNat := fun k => h (UInt32.lt_iff_toNat_lt.mpr k)
    rw [UInt32.toNat_sub_of_le _ _ (UInt32.le_iff_toNat_le.mpr (by omega))]
    omega

namespace Pixel

/-- The top-left cell, where every drawing starts. -/
def origin : Pixel := ⟨0, 0⟩

/-- The larger of the two coordinate differences. -/
def chebyshev (p q : Pixel) : UInt32 :=
  let dx := absDiff p.x q.x
  let dy := absDiff p.y q.y
  if dx > dy then dx else dy

/-- The sum of the two coordinate differences. -/
def manhattan (p q : Pixel) : Nat := (absDiff p.x q.x).toNat + (absDiff p.y q.y).toNat

/-- The place of a pixel on the signed lattice. -/
def point (p : Pixel) : Point := ((p.x.toNat : Int), (p.y.toNat : Int))

/-- The remaining horizontal way from `p` to `q`, positive to the right. -/
def dx (p q : Pixel) : Int := (q.x.toNat : Int) - p.x.toNat

/-- The remaining vertical way from `p` to `q`, positive downward. -/
def dy (p q : Pixel) : Int := (q.y.toNat : Int) - p.y.toNat

theorem toNat_chebyshev (p q : Pixel) :
    (p.chebyshev q).toNat = max (absDiff p.x q.x).toNat (absDiff p.y q.y).toNat := by
  unfold chebyshev
  simp only [gt_iff_lt, UInt32.lt_iff_toNat_lt]
  split <;> omega

theorem manhattan_eq_natAbs (p q : Pixel) :
    p.manhattan q = (p.dx q).natAbs + (p.dy q).natAbs := by
  simp only [manhattan, toNat_absDiff, dx, dy]
  omega

theorem eq_of_dx_dy {p q : Pixel} (hx : p.dx q = 0) (hy : p.dy q = 0) : p = q := by
  obtain ⟨px, py⟩ := p
  obtain ⟨qx, qy⟩ := q
  simp only [dx, dy] at hx hy
  congr 1
  · exact UInt32.toNat_inj.mp (by omega)
  · exact UInt32.toNat_inj.mp (by omega)

end Pixel

end PenPlotter
