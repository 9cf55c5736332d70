import PenPlotter.Proofs.Motion

/-!
# The first fault of a replay

Command `i` is *refused* when the turtle that has obeyed the commands before it refuses it
(`Refused`).  A replay fails at the first command that is refused, and only there; it then has
obeyed all commands before, and what follows does not matter.  A canvas makes no other difference
than to forbid the steps that leave it: on a canvas a replay leaves the trace that it leaves without
bounds, if every point that a unit step reaches is on the canvas (`run_canvas_iff`).

**Main statement** (`replay_first_fault`): these laws for every sequence of commands, with bounds and
without.
-/

namespace PenPlotter

/-- The turtle that has obeyed the first `i` commands refuses the next. -/
def Refused (bounds : Option Dimensions) (cs : List Command) (i : Nat) (f : Fault) : Prop :=
  ∃ c, cs[i]? = some c ∧ Refuses bounds (Turtle.fresh.after (cs.take i)) c f

/-- Without bounds no step leaves them. -/
theorem not_refuses_none_offCanvas {t : Turtle} {c : Command} {p : Point} :
    ¬ Refuses none t c (.offCanvas p) := by
  intro h
  cases h with
  | leaves _ hp =>
      have hout := List.find?_some hp
      simp [Allows] at hout

namespace Sketch

variable {canvas : Dimensions} {bounds : Option Dimensions} {s u : Sketch} {c : Command}

theorem allows_some {p : Point} : Allows (some canvas) p ↔ canvas.Holds p := by
  simp [Allows]

theorem allows_none (p : Point) : Allows none p := by
  simp [Allows]

/-- On a canvas a command does what it does without bounds, if its steps stay on the canvas. -/
theorem obeys_canvas_iff :
    Obeys (some canvas) s c u ↔ Obeys none s c u ∧ ∀ p ∈ s.turtle.steps c, canvas.Holds p := by
  constructor
  · intro h
    cases h with
    | penUp => exact ⟨.penUp, by simp [Turtle.steps]⟩
    | penDown => exact ⟨.penDown, by simp [Turtle.steps]⟩
    | rotate hr => exact ⟨.rotate hr, by simp [Turtle.steps]⟩
    | move hle hall =>
        exact ⟨.move hle fun p _ => allows_none p, fun p hp => allows_some.mp (hall p hp)⟩
  · rintro ⟨h, hall⟩
    cases h with
    | penUp => exact .penUp
    | penDown => exact .penDown
    | rotate hr => exact .rotate hr
    | move hle _ => exact .move hle fun p hp => allows_some.mpr (hall p hp)

/-- On a canvas a run leads where it leads without bounds, if its steps stay on the canvas. -/
theorem run_canvas_iff {cs : List Command} {index : Nat} :
    s.run (some canvas) index cs = .ok u ↔
      s.run none index cs = .ok u ∧ ∀ p ∈ s.turtle.path cs, canvas.Holds p := by
  induction cs generalizing s index with
  | nil => simp [run, Turtle.path]
  | cons c cs ih =>
      have hcons {bounds : Option Dimensions} : s.run bounds index (c :: cs) = .ok u ↔
          ∃ t, Obeys bounds s c t ∧ t.run bounds (index + 1) cs = .ok u := by
        simp only [← obey_eq_ok_iff, run]
        cases s.obey bounds c <;> simp
      simp only [hcons, obeys_canvas_iff, ih, Turtle.path, List.forall_mem_append]
      constructor
      · rintro ⟨t, ⟨ho, hsteps⟩, hr, hpath⟩
        exact ⟨⟨t, ho, hr⟩, hsteps, ho.turtle ▸ hpath⟩
      · rintro ⟨⟨t, ho, hr⟩, hsteps, hpath⟩
        exact ⟨t, ⟨ho, hsteps⟩, hr, ho.turtle ▸ hpath⟩

theorem run_append_of_error {cs ds : List Command} {index : Nat} {e : ReplayError}
    (h : s.run bounds index cs = .error e) : s.run bounds index (cs ++ ds) = .error e := by
  obtain ⟨done, c, rest, t, rfl, hrun, hfault, hindex⟩ := run_eq_error_iff.mp h
  refine run_eq_error_iff.mpr ⟨done, c, rest ++ ds, t, ?_, hrun, hfault, hindex⟩
  rw [List.append_assoc, List.cons_append]

theorem run_append_eq_ok_iff {cs ds : List Command} {index : Nat} :
    s.run bounds index (cs ++ ds) = .ok u ↔
      ∃ t, s.run bounds index cs = .ok t ∧ t.run bounds (index + cs.length) ds = .ok u := by
  constructor
  · intro h
    cases hcs : s.run bounds index cs with
    | error e => rw [run_append_of_error hcs] at h; cases h
    | ok t => exact ⟨t, rfl, run_append hcs ▸ h⟩
  · rintro ⟨t, ht, hu⟩
    rw [run_append ht, hu]

end Sketch

theorem refused_iff {bounds : Option Dimensions} {cs : List Command} {i : Nat} {f : Fault} :
    Refused bounds cs i f ↔ ∃ done c rest, cs = done ++ c :: rest ∧ done.length = i ∧
      Refuses bounds (Turtle.fresh.after done) c f := by
  constructor
  · rintro ⟨c, hc, hf⟩
    obtain ⟨hi, rfl⟩ := List.getElem?_eq_some_iff.mp hc
    refine ⟨cs.take i, cs[i], cs.drop (i + 1), ?_, List.length_take_of_le (Nat.le_of_lt hi), hf⟩
    rw [List.getElem_cons_drop, List.take_append_drop]
  · rintro ⟨done, c, rest, rfl, rfl, hf⟩
    exact ⟨c, by simp, by simpa using hf⟩

section Replay

variable {bounds : Option Dimensions} {cs : List Command} {i : Nat} {f : Fault}

theorem replayIn_eq_ok_iff {t : Trace} :
    replayIn bounds cs = .ok t ↔ ∃ s, Sketch.fresh.run bounds 0 cs = .ok s ∧ s.trace = t := by
  rw [replayIn]
  cases Sketch.fresh.run bounds 0 cs <;> simp [Except.map]

theorem replayIn_eq_error_iff {e : ReplayError} :
    replayIn bounds cs = .error e ↔ Sketch.fresh.run bounds 0 cs = .error e := by
  rw [replayIn]
  cases Sketch.fresh.run bounds 0 cs <;> simp [Except.map]

/-- A replay that succeeds has refused no command. -/
theorem not_refused_of_replayIn {t : Trace} (h : replayIn bounds cs = .ok t) :
    ¬ Refused bounds cs i f := by
  intro hf
  obtain ⟨done, c, rest, rfl, -, hf⟩ := refused_iff.mp hf
  obtain ⟨s, hs, -⟩ := replayIn_eq_ok_iff.mp h
  obtain ⟨u, hu, hrest⟩ := Sketch.run_append_eq_ok_iff.mp hs
  have hturtle : u.turtle = Turtle.fresh.after done := Sketch.turtle_run hu
  rw [← hturtle, ← Sketch.obey_eq_error_iff] at hf
  rw [Sketch.run, hf] at hrest
  cases hrest

/-- **A replay fails at a command that is refused after all before have been obeyed.** -/
theorem replayIn_eq_error_iff_refused :
    replayIn bounds cs = .error ⟨i, f⟩ ↔
      (∃ t, replayIn bounds (cs.take i) = .ok t ∧
        t.turtle = Turtle.fresh.after (cs.take i)) ∧ Refused bounds cs i f := by
  rw [replayIn_eq_error_iff, Sketch.run_eq_error_iff]
  constructor
  · rintro ⟨done, c, rest, u, rfl, hrun, hfault, hindex⟩
    obtain rfl : i = done.length := hindex.trans (Nat.zero_add _)
    have hturtle : u.turtle = Turtle.fresh.after done := Sketch.turtle_run hrun
    rw [List.take_left]
    refine ⟨⟨u.trace, replayIn_eq_ok_iff.mpr ⟨u, hrun, rfl⟩, hturtle⟩, ?_⟩
    rw [Sketch.obey_eq_error_iff, hturtle] at hfault
    exact refused_iff.mpr ⟨done, c, rest, rfl, rfl, hfault⟩
  · rintro ⟨⟨t, ht, -⟩, hf⟩
    obtain ⟨done, c, rest, rfl, rfl, hc⟩ := refused_iff.mp hf
    rw [List.take_left] at ht
    obtain ⟨u, hu, -⟩ := replayIn_eq_ok_iff.mp ht
    have hturtle : u.turtle = Turtle.fresh.after done := Sketch.turtle_run hu
    rw [← hturtle, ← Sketch.obey_eq_error_iff] at hc
    exact ⟨done, c, rest, u, rfl, hu, hc, (Nat.zero_add _).symm⟩

/-- Whether command `i` is refused does not depend on the commands behind it. -/
theorem refused_take_iff {n : Nat} (h : i < n) :
    Refused bounds (cs.take n) i f ↔ Refused bounds cs i f := by
  rw [Refused, Refused, List.getElem?_take_of_lt h, List.take_take, Nat.min_eq_left (Nat.le_of_lt h)]

/-- The commands before the one at which a replay fails are not refused. -/
theorem not_refused_of_lt {e : ReplayError} (h : replayIn bounds cs = .error e) {j : Nat}
    (hj : j < e.index) (g : Fault) : ¬ Refused bounds cs j g := by
  obtain ⟨⟨t, ht, -⟩, -⟩ := replayIn_eq_error_iff_refused.mp h
  rw [← refused_take_iff hj]
  exact not_refused_of_replayIn ht

end Replay

/-- **The first fault decides a replay.**  On a canvas a replay leaves the trace it leaves without
bounds, provided that every point a unit step reaches is on the canvas.  With bounds and without, a
replay succeeds if and only if no command is refused, and otherwise fails at the first command that
is, for the cause for which it is refused, after a replay of the commands before that succeeds.
Without bounds no cause is that the turtle leaves them.  A failure depends on no later command. -/
theorem replay_first_fault (cs : List Command) :
    (∀ canvas t, replayWithin cs canvas = .ok t ↔
        replay cs = .ok t ∧ ∀ p ∈ Turtle.fresh.path cs, canvas.Holds p) ∧
      (∀ bounds, (∃ t, replayIn bounds cs = .ok t) ↔ ∀ i f, ¬ Refused bounds cs i f) ∧
      (∀ bounds i f, replayIn bounds cs = .error ⟨i, f⟩ ↔
        Refused bounds cs i f ∧ ∀ j < i, ∀ g, ¬ Refused bounds cs j g) ∧
      (∀ bounds i f, replayIn bounds cs = .error ⟨i, f⟩ ↔
        (∃ t, replayIn bounds (cs.take i) = .ok t ∧
          t.turtle = Turtle.fresh.after (cs.take i)) ∧ Refused bounds cs i f) ∧
      (∀ i p, replay cs ≠ .error ⟨i, .offCanvas p⟩) ∧
      ∀ bounds i f, replayIn bounds (cs.take (i + 1)) = .error ⟨i, f⟩ ↔
        replayIn bounds cs = .error ⟨i, f⟩ := by
  refine ⟨fun canvas t => ?_, fun bounds => ?_, fun bounds i f => ?_,
    fun bounds i f => replayIn_eq_error_iff_refused, fun i p h => ?_, fun bounds i f => ?_⟩
  · rw [replayWithin, replay, replayIn_eq_ok_iff, replayIn_eq_ok_iff, ← exists_and_right]
    refine exists_congr fun s => ?_
    rw [Sketch.run_canvas_iff]
    exact and_right_comm
  · constructor
    · rintro ⟨t, ht⟩ i f
      exact not_refused_of_replayIn ht
    · intro h
      cases hr : replayIn bounds cs with
      | ok t => exact ⟨t, rfl⟩
      | error e => exact absurd (replayIn_eq_error_iff_refused.mp hr).2 (h e.index e.fault)
  · constructor
    · intro h
      exact ⟨(replayIn_eq_error_iff_refused.mp h).2, fun j hj => not_refused_of_lt h hj⟩
    · rintro ⟨hf, hleast⟩
      cases hr : replayIn bounds cs with
      | ok t => exact absurd hf (not_refused_of_replayIn hr)
      | error e =>
          obtain ⟨hprior, hfault⟩ := replayIn_eq_error_iff_refused.mp hr
          rcases Nat.lt_trichotomy e.index i with hlt | rfl | hgt
          · exact absurd hfault (hleast e.index hlt e.fault)
          · rw [← hr]
            exact replayIn_eq_error_iff_refused.mpr ⟨hprior, hf⟩
          · exact absurd hf (not_refused_of_lt hr hgt f)
  · obtain ⟨-, c, -, hf⟩ := replayIn_eq_error_iff_refused.mp h
    exact not_refuses_none_offCanvas hf
  · rw [replayIn_eq_error_iff_refused, replayIn_eq_error_iff_refused, List.take_take,
      Nat.min_eq_left (Nat.le_succ i), refused_take_iff (Nat.lt_succ_self i)]

end PenPlotter
