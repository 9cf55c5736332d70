import PenPlotter.Command
import PenPlotter.Numeric.Digits
import PenPlotter.Turtle

/-!
# Replaying commands

A replay makes a turtle obey commands and records where it goes.  The record is a sequence of
*legs*: a leg begins where the pen changes between up and down, and holds every lattice point
from there to the next change.  A pen command that changes nothing begins no leg.  The first leg
begins at the origin with the pen up.

Three things can go wrong at a command: a turn by no multiple of 90 degrees, a move longer than
`maxUnits`, which is refused before its first step, and, when the replay is confined to a canvas,
a step off it.

The *trace* of a replay is the turtle at the end, the pen-down legs (strokes), and the pen-up
legs that go anywhere (travel).
-/

namespace PenPlotter

/-- A stretch of the way with the pen in one place. -/
structure Leg where
  pen : Pen
  /-- Where the turtle is. -/
  tip : Point
  /-- The points before, latest first. -/
  trail : List Point
  deriving DecidableEq, Repr

namespace Leg

/-- The leg that begins at a point. -/
def start (pen : Pen) (p : Point) : Leg := ⟨pen, p, []⟩

/-- The leg with one more point. -/
def extend (l : Leg) (p : Point) : Leg := { l with tip := p, trail := l.tip :: l.trail }

/-- The points of the leg in the order they were reached. -/
def points (l : Leg) : List Point := (l.tip :: l.trail).reverse

theorem points_start (pen : Pen) (p : Point) : (start pen p).points = [p] := rfl

theorem points_extend (l : Leg) (p : Point) : (l.extend p).points = l.points ++ [p] := by
  simp [points, extend]

end Leg

/-- What can go wrong at a command. -/
inductive Fault where
  /-- The turn is no multiple of 90 degrees. -/
  | unalignedRotation (degrees : Int16)
  /-- The move is longer than a single move may be. -/
  | moveTooLong (units : UInt32)
  /-- A step leads off the canvas. -/
  | offCanvas (position : Point)
  deriving DecidableEq, Repr

/-- A fault and the place of its command in the sequence. -/
structure ReplayError where
  index : Nat
  fault : Fault
  deriving DecidableEq, Repr

/-- The longest single move. -/
def maxUnits : UInt32 := 65536

/-- The wording of a replay error. -/
def ReplayError.message (e : ReplayError) : String :=
  "command " ++ Numeric.decimal e.index ++ ": " ++
    match e.fault with
    | .unalignedRotation degrees =>
      "rotation by " ++ Numeric.signedDecimal degrees.toInt
        ++ " degrees is not a multiple of 90"
    | .moveTooLong units =>
      "move of " ++ Numeric.decimal units.toNat ++ " units exceeds the limit of "
        ++ Numeric.decimal maxUnits.toNat
    | .offCanvas (x, y) =>
      "turtle left the canvas at (" ++ Numeric.signedDecimal x ++ ", " ++ Numeric.signedDecimal y
        ++ ")"

/-- The point lies on a canvas. -/
def Dimensions.Holds (d : Dimensions) (p : Point) : Prop :=
  0 ≤ p.1 ∧ p.1 < d.width.toNat ∧ 0 ≤ p.2 ∧ p.2 < d.height.toNat

instance (d : Dimensions) (p : Point) : Decidable (d.Holds p) :=
  inferInstanceAs (Decidable (_ ∧ _ ∧ _ ∧ _))

/-- The bounds of a replay let a point be reached; without bounds every point may be. -/
def Allows (bounds : Option Dimensions) (p : Point) : Prop := ∀ d ∈ bounds, d.Holds p

instance (bounds : Option Dimensions) (p : Point) : Decidable (Allows bounds p) :=
  inferInstanceAs (Decidable (∀ d ∈ bounds, d.Holds p))

/-- A record in progress: the way the turtle faces, the leg it is on, and the legs before, latest
first. -/
structure Sketch where
  heading : Heading
  leg : Leg
  finished : List Leg
  deriving DecidableEq, Repr

/-- What a replay leaves behind. -/
structure Trace where
  /-- The turtle after the last command. -/
  turtle : Turtle
  /-- The pen-down legs in drawing order; each starts where the pen went down. -/
  strokes : List (List Point)
  /-- The pen-up legs that go anywhere, in order. -/
  travel : List (List Point)
  deriving DecidableEq, Repr

namespace Sketch

/-- Nothing recorded yet: a fresh turtle. -/
def fresh : Sketch := ⟨.right, Leg.start .up (0, 0), []⟩

/-- The turtle at the end of the record. -/
def turtle (s : Sketch) : Turtle := ⟨s.leg.tip, s.heading, s.leg.pen⟩

/-- The legs in the order they were begun. -/
def legs (s : Sketch) : List Leg := (s.leg :: s.finished).reverse

/-- The record with the pen up or down from here on. -/
def setPen (s : Sketch) (pen : Pen) : Sketch :=
  if s.leg.pen = pen then s
  else { s with leg := Leg.start pen s.leg.tip, finished := s.leg :: s.finished }

/-- Walk straight ahead by unit steps, up to a step that the bounds forbid. -/
def walk (bounds : Option Dimensions) : Nat → Sketch → Except Fault Sketch
  | 0, s => .ok s
  | n + 1, s =>
    let p := s.turtle.ahead
    if Allows bounds p then walk bounds n { s with leg := s.leg.extend p }
    else .error (.offCanvas p)

/-- Obey one command. -/
def obey (bounds : Option Dimensions) (s : Sketch) : Command → Except Fault Sketch
  | .penUp => .ok (s.setPen .up)
  | .penDown => .ok (s.setPen .down)
  | .rotate degrees =>
    match s.heading.rotate? degrees with
    | some h => .ok { s with heading := h }
    | none => .error (.unalignedRotation degrees)
  | .move units =>
    if units > maxUnits then .error (.moveTooLong units) else s.walk bounds units.toNat

/-- Obey commands, the first of which has the given place, up to the first fault. -/
def run (bounds : Option Dimensions) (index : Nat) :
    List Command → Sketch → Except ReplayError Sketch
  | [], s => .ok s
  | c :: cs, s =>
    match s.obey bounds c with
    | .ok t => run bounds (index + 1) cs t
    | .error fault => .error ⟨index, fault⟩

/-- What is left of the record when the replay is over. -/
def trace (s : Sketch) : Trace where
  turtle := s.turtle
  strokes := (s.legs.filter fun l => l.pen = .down).map Leg.points
  travel := (s.legs.filter fun l => l.pen = .up ∧ l.trail ≠ []).map Leg.points

end Sketch

/-- Replay commands from a fresh turtle, within bounds if there are any. -/
def replayIn (bounds : Option Dimensions) (cs : List Command) : Except ReplayError Trace :=
  (Sketch.fresh.run bounds 0 cs).map Sketch.trace

/-- Replay commands on the unbounded lattice. -/
def replay (cs : List Command) : Except ReplayError Trace := replayIn none cs

/-- Replay commands on a canvas, which no step may leave. -/
def replayWithin (cs : List Command) (canvas : Dimensions) : Except ReplayError Trace :=
  replayIn (some canvas) cs

/-- Points compared by row, then by column. -/
def rowMajorLE (p q : Point) : Bool := p.2 < q.2 || (p.2 == q.2 && p.1 ≤ q.1)

/-- The points reached with the pen down, each once, by row and then by column. -/
def Trace.inked (t : Trace) : List Point :=
  (t.strokes.flatten.mergeSort rowMajorLE).eraseReps

end PenPlotter
