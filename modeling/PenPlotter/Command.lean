import PenPlotter.Heading

/-!
# Commands

A plotter obeys four commands: lift the pen, lower it, turn on the spot, and move straight ahead.
Turns are signed degrees, clockwise positive.  Two turns that differ by full circles face the
plotter the same way; the *normal* turn among them lies in the half-open range from −180
(excluded) to 180 (included), and `normalTurn` picks it.
-/

namespace PenPlotter

/-- One instruction to the plotter. -/
inductive Command where
  /-- Lift the pen. -/
  | penUp
  /-- Lower the pen. -/
  | penDown
  /-- Turn on the spot by signed degrees, clockwise positive. -/
  | rotate (degrees : Int16)
  /-- Move straight ahead by so many units. -/
  | move (units : UInt32)
  deriving DecidableEq, Repr, Inhabited

/-- The turn in (−180, 180] that faces the same way. -/
def normalTurn (degrees : Int) : Int16 :=
  let wrapped := degrees % 360
  Int16.ofInt (if wrapped > 180 then wrapped - 360 else wrapped)

theorem toInt_normalTurn (degrees : Int) :
    (normalTurn degrees).toInt
      = if degrees % 360 > 180 then degrees % 360 - 360 else degrees % 360 := by
  have h₁ := Int.emod_nonneg degrees (show (360 : Int) ≠ 0 by decide)
  have h₂ := Int.emod_lt_of_pos degrees (show (0 : Int) < 360 by decide)
  unfold normalTurn
  simp only
  split <;> rw [Int16.toInt_ofInt_of_le] <;> simp <;> omega

theorem normalTurn_range (degrees : Int) :
    -180 < (normalTurn degrees).toInt ∧ (normalTurn degrees).toInt ≤ 180 := by
  rw [toInt_normalTurn]
  split <;> omega

theorem normalTurn_emod (degrees : Int) : (normalTurn degrees).toInt % 360 = degrees % 360 := by
  rw [toInt_normalTurn]
  split <;> omega

/-- A normal turn is its own normal form. -/
theorem normalTurn_toInt {t : Int16} (h : -180 < t.toInt) (h' : t.toInt ≤ 180) :
    normalTurn t.toInt = t := by
  rw [← Int16.toInt_inj, toInt_normalTurn]
  split <;> omega

namespace Command

/-- The command with its turn in normal form. -/
def normal : Command → Command
  | rotate degrees => rotate (normalTurn degrees.toInt)
  | c => c

end Command

/-- A turn and its normal form face the plotter the same way. -/
theorem Heading.rotate?_normalTurn (h : Heading) (t : Int16) :
    h.rotate? (normalTurn t.toInt) = h.rotate? t := by
  have := normalTurn_emod t.toInt
  have e : (h.degrees + (normalTurn t.toInt).toInt) % 360 = (h.degrees + t.toInt) % 360 := by
    omega
  simp only [rotate?, ofDegrees?, e]

end PenPlotter
