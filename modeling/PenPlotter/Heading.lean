import PenPlotter.Pixel

/-!
# Headings and turns

The plotter faces one of four ways.  Angles are measured clockwise on the canvas: 0° faces right
and 90° faces down.  `Heading.ofDegrees?` names the heading of an angle, `Heading.unitStep` the
lattice step taken along it, and `Heading.turnTo?` the turn from one heading to another: a
quarter-turn either way is written with the smaller angle and its sign, and an about-face is
always +180.

`Heading.toward` is the local rule of every walk: face along the larger remaining distance, the
vertical one when the two are equal.  `Pixel.step` moves a pixel one cell along a heading;
`manhattan_step_toward` says that a step by the local rule brings the goal one cell closer, so
every walk ends and no step leaves the range of the words.
-/

namespace PenPlotter

/-- One of the four ways the plotter can face. -/
inductive Heading where
  /-- Facing right, at 0°. -/
  | right
  /-- Facing down, at 90°. -/
  | down
  /-- Facing left, at 180°. -/
  | left
  /-- Facing up, at 270°. -/
  | up
  deriving DecidableEq, Repr, Inhabited

namespace Heading

/-- All headings, by increasing angle. -/
def all : List Heading := [right, down, left, up]

/-- The angle of a heading, in degrees clockwise from facing right. -/
def degrees : Heading → Int
  | right => 0
  | down => 90
  | left => 180
  | up => 270

/-- The heading at an angle, taken modulo a full turn; only multiples of 90° have one. -/
def ofDegrees? (angle : Int) : Option Heading :=
  all.find? fun h => h.degrees == angle % 360

/-- The lattice step taken along a heading. -/
def unitStep : Heading → Point
  | right => (1, 0)
  | down => (0, 1)
  | left => (-1, 0)
  | up => (0, -1)

/-- The heading that reduces the larger of the two remaining distances; the vertical one is
taken when they are equal. -/
def toward (dx dy : Int) : Heading :=
  if dx.natAbs > dy.natAbs then
    if dx > 0 then right else left
  else
    if dy > 0 then down else up

/-- The turn, in signed degrees, that makes `source` face `goal`; there is none if it does so already. -/
def turnTo? (source goal : Heading) : Option Int16 :=
  let clockwise := (goal.degrees - source.degrees) % 360
  if clockwise = 0 then none
  else if clockwise ≤ 180 then some (Int16.ofInt clockwise)
  else some (Int16.ofInt (clockwise - 360))

theorem ofDegrees?_degrees (h : Heading) : ofDegrees? h.degrees = some h := by
  cases h <;> rfl

theorem ofDegrees?_add_turn (h : Heading) (k : Int) :
    ofDegrees? (h.degrees + 360 * k) = some h := by
  have : (h.degrees + 360 * k) % 360 = h.degrees % 360 := by omega
  rw [← ofDegrees?_degrees h, ofDegrees?, this]
  rfl

theorem turnTo?_eq_none_iff {g h : Heading} : g.turnTo? h = none ↔ g = h := by
  cases g <;> cases h <;> decide

/-- Turning by `turnTo?` from one heading arrives at the other. -/
theorem ofDegrees?_turnTo? {g h : Heading} {t : Int16} (ht : g.turnTo? h = some t) :
    ofDegrees? (g.degrees + t.toInt) = some h := by
  cases g <;> cases h <;> cases ht <;> rfl

/-- The way that remains in the direction of a heading. -/
def wayAlong (dx dy : Int) : Heading → Int
  | right => dx
  | down => dy
  | left => -dx
  | up => -dy

/-- Some way remains in the direction chosen by the local rule. -/
theorem wayAlong_toward_pos {dx dy : Int} (h : ¬ (dx = 0 ∧ dy = 0)) :
    0 < wayAlong dx dy (toward dx dy) := by
  by_cases hxy : dx.natAbs > dy.natAbs
  · by_cases hx : dx > 0
    · simp only [toward, hxy, hx, if_true, wayAlong]
    · simp only [toward, hxy, hx, if_true, if_false, wayAlong]
      omega
  · by_cases hy : dy > 0
    · simp only [toward, hxy, hy, if_true, if_false, wayAlong]
    · simp only [toward, hxy, hy, if_false, wayAlong]
      omega

/-- The heading after a turn by signed degrees, clockwise positive; none off the four ways. -/
def rotate? (h : Heading) (turn : Int16) : Option Heading :=
  ofDegrees? (h.degrees + turn.toInt)

theorem rotate?_turnTo? {g h : Heading} {t : Int16} (ht : g.turnTo? h = some t) :
    g.rotate? t = some h :=
  ofDegrees?_turnTo? ht

end Heading

namespace Pixel

/-! ### Steps -/

/-- One cell along a heading. -/
def step (p : Pixel) : Heading → Pixel
  | .right => ⟨p.x + 1, p.y⟩
  | .down => ⟨p.x, p.y + 1⟩
  | .left => ⟨p.x - 1, p.y⟩
  | .up => ⟨p.x, p.y - 1⟩

/-- One cell along a heading, unless the edge of the coordinate range is in the way. -/
def step? (p : Pixel) (h : Heading) : Option Pixel :=
  let onEdge := match h with
    | .right => p.x + 1 == 0
    | .down => p.y + 1 == 0
    | .left => p.x == 0
    | .up => p.y == 0
  if onEdge then none else some (p.step h)

/-- The heading of the next step on the way from `p` to `q`. -/
def headingTo (p q : Pixel) : Heading := Heading.toward (p.dx q) (p.dy q)

theorem toNat_add_one {a : UInt32} {n : Nat} (h : a.toNat < n) (hn : n < UInt32.size) :
    (a + 1).toNat = a.toNat + 1 := by
  simp only [UInt32.size] at hn
  rw [UInt32.toNat_add]
  simp only [UInt32.reduceToNat]
  omega

theorem toNat_sub_one {a : UInt32} {n : Nat} (h : n < a.toNat) :
    (a - 1).toNat = a.toNat - 1 := by
  rw [UInt32.toNat_sub_of_le _ _ (UInt32.le_iff_toNat_le.mpr (by simp; omega))]
  simp

/-- A step along which some way remains moves along the lattice step of its heading. -/
theorem point_step {p q : Pixel} {h : Heading} (hway : 0 < h.wayAlong (p.dx q) (p.dy q)) :
    (p.step h).point = (p.point.1 + h.unitStep.1, p.point.2 + h.unitStep.2) := by
  have hx := q.x.toNat_lt_size
  have hy := q.y.toNat_lt_size
  cases h <;> simp only [Heading.wayAlong, dx, dy] at hway <;>
    simp only [step, point, Heading.unitStep, Prod.mk.injEq]
  case right =>
    have := toNat_add_one (a := p.x) (n := q.x.toNat) (by omega) hx
    omega
  case down =>
    have := toNat_add_one (a := p.y) (n := q.y.toNat) (by omega) hy
    omega
  case left =>
    have := toNat_sub_one (a := p.x) (n := q.x.toNat) (by omega)
    omega
  case up =>
    have := toNat_sub_one (a := p.y) (n := q.y.toNat) (by omega)
    omega

/-- A step along which some way remains brings the goal one cell closer. -/
theorem manhattan_step {p q : Pixel} {h : Heading} (hway : 0 < h.wayAlong (p.dx q) (p.dy q)) :
    (p.step h).manhattan q + 1 = p.manhattan q := by
  have hs := point_step hway
  simp only [point, Prod.mk.injEq] at hs
  simp only [manhattan_eq_natAbs]
  cases h <;> simp only [Heading.wayAlong, Heading.unitStep, dx, dy] at hway hs ⊢ <;> omega

/-- Some way remains in the direction chosen on the way to another pixel. -/
theorem wayAlong_headingTo_pos {p q : Pixel} (hne : p ≠ q) :
    0 < (p.headingTo q).wayAlong (p.dx q) (p.dy q) :=
  Heading.wayAlong_toward_pos fun h => hne (eq_of_dx_dy h.1 h.2)

/-- **Progress.** A step by the local rule brings the goal one cell closer. -/
theorem manhattan_step_headingTo {p q : Pixel} (hne : p ≠ q) :
    (p.step (p.headingTo q)).manhattan q + 1 = p.manhattan q :=
  manhattan_step (wayAlong_headingTo_pos hne)

end Pixel

end PenPlotter
