import Mathlib.Logic.Function.Iterate
import PenPlotter.Proofs.Faults
import PenPlotter.Proofs.Grammar

/-!
# A walk step by step

`Draft.ofSteps s goal n` is the draft of the first `n` steps from the plotter `s` toward a pixel.
It is *under way* (`Draft.Underway`) when the plotter is in the rectangle that its start and the
goal span, as many steps closer to the goal as have been taken, and a replay of the commands from
where the plotter started ends where the plotter is.

**Main statement** (`walkTo_ofSteps`): a walk takes as many steps as the Manhattan distance and adds
their commands to those written before.  The draft is under way at every step, and no step leaves
the coordinate range.
-/

namespace PenPlotter

/-- Unit steps hold as many moves by one unit. -/
theorem UnitSteps.count_move {n : Nat} {cs : List Command} (h : UnitSteps n cs) :
    cs.count (.move 1) = n := by
  induction h with
  | nil => rfl
  | ahead _ ih => rw [List.count_cons_self, ih]
  | @turned _ t _ _ _ ih =>
      have hturn : Command.rotate t ≠ .move 1 := nofun
      rw [List.count_cons_of_ne hturn, List.count_cons_self, ih]

namespace Draft

/-! ### What was written before -/

/-- The draft with commands written before its own. -/
def behind (d : Draft) (out : Array Command) : Draft := ⟨d.plotter, out ++ d.commands⟩

/-- A step does not look at what was written before it. -/
theorem stepToward_behind (d : Draft) (goal : Pixel) (out : Array Command) :
    (d.behind out).stepToward goal = (d.stepToward goal).behind out := by
  simp only [stepToward, face, advance, behind]
  split <;> simp [Array.push_append]

theorem iterate_stepToward_behind (d : Draft) (goal : Pixel) (out : Array Command) (n : Nat) :
    (stepToward · goal)^[n] (d.behind out) = ((stepToward · goal)^[n] d).behind out :=
  have hstep : Function.Semiconj (behind · out) (stepToward · goal) (stepToward · goal) :=
    fun d => (d.stepToward_behind goal out).symm
  ((hstep.iterate_right n).eq d).symm

/-- A walk takes as many steps as the Manhattan distance. -/
theorem walkTo_eq_iterate (d : Draft) (goal : Pixel) :
    d.walkTo goal = (stepToward · goal)^[d.plotter.position.manhattan goal] d := by
  fun_induction walkTo d goal with
  | case1 d h =>
      rw [Pixel.manhattan_eq_zero_iff.mpr h]
      rfl
  | case2 d hne ih =>
      rw [ih, position_stepToward, ← Pixel.manhattan_step_headingTo hne,
        Function.iterate_succ_apply]

/-! ### The steps of a walk -/

/-- The draft of so many steps from a plotter toward a pixel. -/
def ofSteps (s : PlotterState) (goal : Pixel) (n : Nat) : Draft :=
  (stepToward · goal)^[n] (start s)

theorem ofSteps_succ (s : PlotterState) (goal : Pixel) (n : Nat) :
    ofSteps s goal (n + 1) = (ofSteps s goal n).stepToward goal :=
  Function.iterate_succ_apply' ..

/-- The draft is that of so many steps toward a goal, as far as can be told from where the plotter
started, where it is, and what a replay of the commands makes of them. -/
structure Underway (s : PlotterState) (goal : Pixel) (n : Nat) (d : Draft) : Prop where
  between : Pixel.Between s.position goal d.plotter.position
  nearer : d.plotter.position.manhattan goal + n = s.position.manhattan goal
  units : UnitSteps n d.commands.toList
  /-- A replay that begins where the plotter started does not fail, and ends where the plotter is,
  with its heading and its pen. -/
  replays : ∀ source : Sketch, source.turtle = s.turtle → ∃ r, Replays none source d r

variable {s : PlotterState} {goal : Pixel} {n : Nat} {d : Draft}

theorem underway_start (s : PlotterState) (goal : Pixel) : Underway s goal 0 (start s) where
  between := by simp [Pixel.Between, start]
  nearer := rfl
  units := .nil
  replays source hsource := ⟨source, .start hsource⟩

/-- **A step keeps the draft under way.** -/
theorem Underway.step (h : Underway s goal n d) (hne : d.plotter.position ≠ goal) :
    Underway s goal (n + 1) (d.stepToward goal) where
  between := h.between.trans (Pixel.between_step_headingTo hne)
  nearer := by
    have hstep := Pixel.manhattan_step_headingTo hne
    have hnear := h.nearer
    rw [position_stepToward]
    omega
  units := by
    obtain ⟨cs, hcs, hunit⟩ := d.exists_unitSteps_stepToward goal
    rw [hcs]
    exact h.units.append hunit
  replays source hsource := by
    obtain ⟨r, hr⟩ := h.replays source hsource
    exact ⟨_, hr.stepToward hne (Sketch.allows_none _)⟩

/-- The goal is not reached before the last step. -/
theorem Underway.position_ne (h : Underway s goal n d) (hn : n < s.position.manhattan goal) :
    d.plotter.position ≠ goal := by
  intro he
  have hnear := h.nearer
  rw [Pixel.manhattan_eq_zero_iff.mpr he] at hnear
  omega

/-- **The draft is under way up to the last step.** -/
theorem underway_ofSteps (hn : n ≤ s.position.manhattan goal) :
    Underway s goal n (ofSteps s goal n) := by
  induction n with
  | zero => exact underway_start s goal
  | succ n ih =>
      have h := ih (Nat.le_of_succ_le hn)
      rw [ofSteps_succ]
      exact h.step (h.position_ne hn)

/-- No step leaves the coordinate range. -/
theorem step?_ofSteps (hn : n < s.position.manhattan goal) :
    (ofSteps s goal n).plotter.position.step? (ofSteps s goal (n + 1)).plotter.heading =
      some (ofSteps s goal (n + 1)).plotter.position := by
  have hne := (underway_ofSteps hn.le).position_ne hn
  rw [ofSteps_succ]
  exact Pixel.step?_eq_some (Pixel.wayAlong_headingTo_pos hne)

/-- **A walk takes as many steps as its goal is away** along the two axes, each with one move by one
unit, and ends at its goal.  It adds the commands of these steps to those written before, whatever
they are.  At every step the plotter is in the rectangle of the walk, one unit closer to the goal
than at the step before, no coordinate wraps around, and a replay of the commands so far ends where
the plotter is. -/
theorem walkTo_ofSteps (s : PlotterState) (goal : Pixel) (out : Array Command) :
    let n := (s.position.dx goal).natAbs + (s.position.dy goal).natAbs
    (⟨s, out⟩ : Draft).walkTo goal = (ofSteps s goal n).behind out ∧
      (ofSteps s goal n).plotter.position = goal ∧
      (ofSteps s goal n).commands.toList.count (.move 1) = n ∧
      (∀ k ≤ n, Underway s goal k (ofSteps s goal k)) ∧
      ∀ k < n, (ofSteps s goal k).Extends (ofSteps s goal (k + 1)) ∧
        (ofSteps s goal k).plotter.position.step? (ofSteps s goal (k + 1)).plotter.heading =
          some (ofSteps s goal (k + 1)).plotter.position := by
  intro n
  have hn : s.position.manhattan goal = n := Pixel.manhattan_eq_natAbs s.position goal
  have hend : Underway s goal n (ofSteps s goal n) := underway_ofSteps hn.ge
  refine ⟨?_, ?_, hend.units.count_move, fun k hk => underway_ofSteps (hn ▸ hk), fun k hk => ?_⟩
  · have hbehind : (⟨s, out⟩ : Draft) = (start s).behind out := by simp [start, behind]
    rw [walkTo_eq_iterate, hn, hbehind, iterate_stepToward_behind]
    rfl
  · have hnear := hend.nearer
    exact Pixel.manhattan_eq_zero_iff.mp (by omega)
  · refine ⟨?_, step?_ofSteps (hn ▸ hk)⟩
    rw [ofSteps_succ]
    exact extends_stepToward _ goal

end Draft

end PenPlotter
