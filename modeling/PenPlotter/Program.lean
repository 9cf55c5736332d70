import PenPlotter.Command

/-!
# Programs

A program is a sequence of commands together with the canvas it was made for.  `Program.counts`
tallies the commands by kind and adds up the lengths of the moves.
-/

namespace PenPlotter

/-- How many commands of each kind there are, and the way they travel. -/
structure CommandCounts where
  penUps : Nat
  penDowns : Nat
  rotations : Nat
  moves : Nat
  travelUnits : Nat
  deriving DecidableEq, Repr, Inhabited

namespace CommandCounts

/-- The counts of no commands. -/
def zero : CommandCounts := ⟨0, 0, 0, 0, 0⟩

/-- The counts with one more command. -/
def tally (n : CommandCounts) : Command → CommandCounts
  | .penUp => { n with penUps := n.penUps + 1 }
  | .penDown => { n with penDowns := n.penDowns + 1 }
  | .rotate _ => { n with rotations := n.rotations + 1 }
  | .move units => { n with moves := n.moves + 1, travelUnits := n.travelUnits + units.toNat }

/-- The counts of a sequence of commands. -/
def ofCommands (cs : List Command) : CommandCounts := cs.foldl tally zero

end CommandCounts

/-- Commands in the order they are obeyed, with the canvas they were made for. -/
structure Program where
  commands : List Command
  dimensions : Dimensions
  deriving DecidableEq, Repr, Inhabited

/-- The commands of a program, tallied by kind. -/
def Program.counts (p : Program) : CommandCounts := CommandCounts.ofCommands p.commands

end PenPlotter
