import Mathlib.Data.List.Chain
import PenPlotter.Program
import PenPlotter.Proofs.Faults

/-!
# How far a turtle travels

The way of a turtle is made of unit steps (`Turtle.isChain_path`), as many as its program travels
units (`length_path`).  A unit step changes one coordinate by one, so the turtle is never farther
from the origin than it has travelled (`natAbs_le_travelUnits`), and a move that is obeyed travels
`maxUnits` at most (`travelUnits_le`).
-/

namespace PenPlotter

/-- The points are one unit step apart: one coordinate differs by one, the other does not differ. -/
def UnitApart (p q : Point) : Prop := (q.1 - p.1).natAbs + (q.2 - p.2).natAbs = 1

namespace Turtle

/-! ### The way of a turtle -/

theorem path_concat (t : Turtle) (cs : List Command) (c : Command) :
    t.path (cs ++ [c]) = t.path cs ++ (t.after cs).steps c := by
  rw [path_append, path_singleton]

theorem after_concat (t : Turtle) (cs : List Command) (c : Command) :
    t.after (cs ++ [c]) = (t.after cs).obey c := by
  rw [after_append]
  rfl

theorem unitApart_ahead (t : Turtle) : UnitApart t.position t.ahead := by
  cases t with
  | mk position heading pen =>
      cases heading <;> simp [UnitApart, ahead, Heading.unitStep]

theorem isChain_stretch (t : Turtle) (n : Nat) :
    (t.position :: t.stretch n).IsChain UnitApart := by
  induction n generalizing t with
  | zero => exact .singleton _
  | succ n ih =>
      rw [stretch_succ]
      exact List.isChain_cons_cons.mpr ⟨t.unitApart_ahead, ih t.step⟩

/-- The steps of a command are unit steps. -/
theorem isChain_steps (t : Turtle) (c : Command) :
    (t.position :: t.steps c).IsChain UnitApart := by
  cases c with
  | move units => exact t.isChain_stretch units.toNat
  | penUp | penDown | rotate => exact .singleton _

/-- The steps of a command end where it leaves the turtle. -/
theorem getLast?_steps (t : Turtle) (c : Command) :
    (t.position :: t.steps c).getLast? = some (t.obey c).position := by
  cases c with
  | penUp | penDown => rfl
  | rotate degrees =>
      simp only [steps, obey, rotate?]
      cases t.heading.rotate? degrees <;> rfl
  | move units =>
      simp only [steps, obey]
      cases units.toNat with
      | zero => simp [stretch]
      | succ n => rw [stretch_concat, ← List.cons_append, List.getLast?_concat]

/-- The way of a turtle is made of unit steps. -/
theorem isChain_path (t : Turtle) (cs : List Command) :
    (t.position :: t.path cs).IsChain UnitApart := by
  induction cs generalizing t with
  | nil => exact .singleton _
  | cons c cs ih =>
      obtain ⟨init, hinit⟩ := List.getLast?_eq_some_iff.mp (t.getLast?_steps c)
      rw [path, ← List.cons_append, hinit, List.append_assoc, List.singleton_append,
        List.isChain_split, ← hinit]
      exact ⟨t.isChain_steps c, ih (t.obey c)⟩

end Turtle

/-! ### Distance and travel -/

/-- Along unit steps the distance from the origin grows by one a step at most. -/
theorem natAbs_le_of_isChain {p q : Point} {ps : List Point} (h : (p :: ps).IsChain UnitApart)
    (hq : q ∈ p :: ps) :
    q.1.natAbs + q.2.natAbs ≤ p.1.natAbs + p.2.natAbs + ps.length := by
  induction ps generalizing p with
  | nil =>
      obtain rfl := List.mem_singleton.mp hq
      exact Nat.le_refl _
  | cons r ps ih =>
      obtain ⟨hpr, hrest⟩ := List.isChain_cons_cons.mp h
      rcases List.mem_cons.mp hq with rfl | hq
      · omega
      · have hle := ih hrest hq
        rw [UnitApart] at hpr
        rw [List.length_cons]
        omega

theorem CommandCounts.ofCommands_concat (cs : List Command) (c : Command) :
    ofCommands (cs ++ [c]) = (ofCommands cs).tally c :=
  List.foldl_concat ..

/-- There are as many unit steps as units travelled. -/
theorem length_path (cs : List Command) :
    (Turtle.fresh.path cs).length = (CommandCounts.ofCommands cs).travelUnits := by
  induction cs using List.reverseRecOn with
  | nil => rfl
  | append_singleton cs c ih =>
      rw [Turtle.path_concat, List.length_append, ih, CommandCounts.ofCommands_concat]
      cases c with
      | move units => simp [Turtle.steps, Turtle.stretch, CommandCounts.tally]
      | penUp | penDown | rotate => rfl

/-- The turtle is never farther from the origin than it has travelled. -/
theorem natAbs_le_travelUnits {cs : List Command} {q : Point}
    (hq : q ∈ (0, 0) :: Turtle.fresh.path cs) :
    q.1.natAbs + q.2.natAbs ≤ (CommandCounts.ofCommands cs).travelUnits := by
  have hle := natAbs_le_of_isChain (Turtle.fresh.isChain_path cs) hq
  rw [length_path] at hle
  have hzero : Turtle.fresh.position.1.natAbs + Turtle.fresh.position.2.natAbs = 0 := rfl
  omega

/-- A command that is obeyed travels no farther than a single move may. -/
theorem travelUnits_le {bounds : Option Dimensions} {cs : List Command} {t : Trace}
    (h : replayIn bounds cs = .ok t) :
    (CommandCounts.ofCommands cs).travelUnits ≤
      maxUnits.toNat * (CommandCounts.ofCommands cs).moves := by
  obtain ⟨s, hs, -⟩ := replayIn_eq_ok_iff.mp h
  refine Sketch.run_keeps (P := fun done _ => (CommandCounts.ofCommands done).travelUnits ≤
    maxUnits.toNat * (CommandCounts.ofCommands done).moves) [] ?_ (Nat.le_refl _) hs
  intro done s c u hle ho
  rw [CommandCounts.ofCommands_concat]
  cases Sketch.obey_eq_ok_iff.mp ho with
  | penUp | penDown | rotate => exact hle
  | move hunits _ =>
      have hmax := UInt32.le_iff_toNat_le.mp hunits
      simp only [CommandCounts.tally, Nat.mul_succ]
      omega

/-- Every command is of one of the four kinds that are tallied. -/
theorem CommandCounts.length_eq (cs : List Command) :
    cs.length = (ofCommands cs).penUps + (ofCommands cs).penDowns + (ofCommands cs).rotations +
      (ofCommands cs).moves := by
  induction cs using List.reverseRecOn with
  | nil => rfl
  | append_singleton cs c ih =>
      rw [ofCommands_concat, List.length_append, List.length_singleton, ih]
      cases c <;> simp only [tally] <;> omega

theorem moves_le_length (cs : List Command) : (CommandCounts.ofCommands cs).moves ≤ cs.length := by
  rw [CommandCounts.length_eq cs]
  exact Nat.le_add_left ..

end PenPlotter
