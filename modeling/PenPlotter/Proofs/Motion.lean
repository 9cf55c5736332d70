import Mathlib.Tactic.Ring
import PenPlotter.Proofs.Simulation

/-!
# The motion of a turtle

A command moves the turtle in the same way whatever has been recorded before.  `Turtle.obey` is the
turtle after a command, `Turtle.steps` the points its unit steps reach, and `Turtle.after` and
`Turtle.path` say the same of a sequence of commands.  `Refuses bounds t c f` lists the causes for
which a turtle refuses a command; each command has its own.

A record changes by a command as `Obeys` says, which is all a command can do:

* `obey_eq_ok_iff`, `obey_eq_error_iff`: a replay obeys and refuses as `Obeys` and `Refuses` say.
* `run_keeps`: what every command keeps holds after a run.
* `run_eq_error_iff`: a run that fails has obeyed the commands before the one that is refused.
-/

namespace PenPlotter

/-- Only multiples of 90 degrees are the angle of a heading. -/
theorem Heading.ofDegrees?_eq_none_iff {angle : Int} : ofDegrees? angle = none ↔ ¬ 90 ∣ angle := by
  simp only [ofDegrees?, all, List.find?_eq_none, List.forall_mem_cons, degrees, beq_iff_eq]
  simp only [List.not_mem_nil, false_implies, implies_true, and_true]
  omega

/-- A heading refuses exactly the turns by no multiple of 90 degrees. -/
theorem Heading.rotate?_eq_none_iff {h : Heading} {degrees : Int16} :
    h.rotate? degrees = none ↔ ¬ 90 ∣ degrees.toInt := by
  rw [rotate?, ofDegrees?_eq_none_iff]
  cases h <;> simp only [Heading.degrees] <;> omega

namespace Turtle

/-- The point so many unit steps ahead. -/
def pointAhead (t : Turtle) (n : Nat) : Point :=
  (t.position.1 + n * t.heading.unitStep.1, t.position.2 + n * t.heading.unitStep.2)

/-- The points that so many unit steps reach. -/
def stretch (t : Turtle) (n : Nat) : List Point :=
  (List.range n).map fun k => t.pointAhead (k + 1)

/-- The turtle after a command; what it refuses leaves it as it is. -/
def obey (t : Turtle) : Command → Turtle
  | .penUp => t.setPen .up
  | .penDown => t.setPen .down
  | .rotate degrees => (t.rotate? degrees).getD t
  | .move units => { t with position := t.pointAhead units.toNat }

/-- The points that the unit steps of a command reach. -/
def steps (t : Turtle) : Command → List Point
  | .move units => t.stretch units.toNat
  | _ => []

/-- The turtle after commands. -/
def after (t : Turtle) (cs : List Command) : Turtle := cs.foldl obey t

/-- The points that the unit steps of commands reach, in the order they are reached. -/
def path (t : Turtle) : List Command → List Point
  | [] => []
  | c :: cs => t.steps c ++ (t.obey c).path cs

@[simp] theorem pointAhead_zero (t : Turtle) : t.pointAhead 0 = t.position := by
  simp [pointAhead]

theorem pointAhead_succ (t : Turtle) (n : Nat) : t.pointAhead (n + 1) = t.step.pointAhead n := by
  simp only [pointAhead, step, ahead, Nat.cast_succ]
  congr 1 <;> ring

theorem stretch_succ (t : Turtle) (n : Nat) :
    t.stretch (n + 1) = t.ahead :: t.step.stretch n := by
  rw [stretch, List.range_succ_eq_map, List.map_cons, List.map_map, pointAhead_succ,
    pointAhead_zero]
  exact congrArg (t.ahead :: ·) (List.map_congr_left fun k _ => t.pointAhead_succ (k + 1))

theorem stretch_concat (t : Turtle) (n : Nat) :
    t.stretch (n + 1) = t.stretch n ++ [t.pointAhead (n + 1)] := by
  simp only [stretch, List.range_succ, List.map_append, List.map_cons, List.map_nil]

theorem after_append (t : Turtle) (cs ds : List Command) :
    t.after (cs ++ ds) = (t.after cs).after ds :=
  List.foldl_append

theorem path_append (t : Turtle) (cs ds : List Command) :
    t.path (cs ++ ds) = t.path cs ++ (t.after cs).path ds := by
  induction cs generalizing t with
  | nil => rfl
  | cons c cs ih => rw [List.cons_append, path, ih, path, List.append_assoc]; rfl

theorem path_singleton (t : Turtle) (c : Command) : t.path [c] = t.steps c :=
  List.append_nil _

end Turtle

theorem Leg.tip_through_concat (l : Leg) (ps : List Point) (p : Point) :
    (l.through (ps ++ [p])).tip = p := by
  rw [← through_through]
  rfl

/-- Why a turtle refuses a command: a turn by no multiple of 90 degrees, a move that is too long, or
a move that is not but whose steps leave the bounds; the first point outside is named. -/
inductive Refuses (bounds : Option Dimensions) (t : Turtle) : Command → Fault → Prop where
  | unaligned {degrees : Int16} :
      ¬ 90 ∣ degrees.toInt → Refuses bounds t (.rotate degrees) (.unalignedRotation degrees)
  | tooLong {units : UInt32} :
      maxUnits < units → Refuses bounds t (.move units) (.moveTooLong units)
  | leaves {units : UInt32} {p : Point} :
      units ≤ maxUnits → (t.steps (.move units)).find? (¬ Allows bounds ·) = some p →
        Refuses bounds t (.move units) (.offCanvas p)

namespace Sketch

variable {bounds : Option Dimensions} {s u : Sketch} {c : Command} {f : Fault}

/-- What an obeyed command does to the record. -/
inductive Obeys (bounds : Option Dimensions) (s : Sketch) : Command → Sketch → Prop where
  | penUp : Obeys bounds s .penUp (s.setPen .up)
  | penDown : Obeys bounds s .penDown (s.setPen .down)
  | rotate {degrees : Int16} {h : Heading} : s.heading.rotate? degrees = some h →
      Obeys bounds s (.rotate degrees) { s with heading := h }
  | move {units : UInt32} : units ≤ maxUnits →
      (∀ p ∈ s.turtle.steps (.move units), Allows bounds p) →
      Obeys bounds s (.move units) (s.along s.heading (s.turtle.steps (.move units)))

/-- A walk puts its points on the open leg, unless the bounds forbid one of them. -/
theorem walk_eq (bounds : Option Dimensions) (n : Nat) (s : Sketch) :
    s.walk bounds n = match (s.turtle.stretch n).find? (¬ Allows bounds ·) with
      | none => .ok (s.along s.heading (s.turtle.stretch n))
      | some p => .error (.offCanvas p) := by
  induction n generalizing s with
  | zero => rfl
  | succ n ih =>
      have hnext : ({ s with leg := s.leg.extend s.turtle.ahead } : Sketch).turtle =
          s.turtle.step := rfl
      rw [walk, Turtle.stretch_succ, List.find?_cons]
      by_cases hp : Allows bounds s.turtle.ahead
      · simp only [hp, if_true, not_true_eq_false, decide_false]
        rw [ih, hnext]
        rfl
      · simp only [hp, if_false, not_false_eq_true, decide_true]

/-- A replay obeys a command in one way. -/
theorem obey_eq_ok_iff : s.obey bounds c = .ok u ↔ Obeys bounds s c u := by
  constructor
  · intro h
    cases c with
    | penUp => cases h; exact .penUp
    | penDown => cases h; exact .penDown
    | rotate degrees =>
        rw [obey] at h
        split at h
        case h_1 heading hr => cases h; exact .rotate hr
        case h_2 => cases h
    | move units =>
        rw [obey, walk_eq] at h
        split at h
        case isTrue => cases h
        case isFalse hle =>
          split at h
          case h_1 hnone =>
            cases h
            refine .move (UInt32.not_lt.mp hle) fun p hp => ?_
            simpa using List.find?_eq_none.mp hnone p hp
          case h_2 => cases h
  · intro h
    cases h with
    | penUp => rfl
    | penDown => rfl
    | rotate hr => rw [obey, hr]
    | @move units hle hall =>
        have hnone : (s.turtle.stretch units.toNat).find? (¬ Allows bounds ·) = none :=
          List.find?_eq_none.mpr fun p hp => by simpa using hall p hp
        rw [obey, if_neg (UInt32.not_lt.mpr hle), walk_eq, hnone]
        rfl

/-- A replay refuses a command for the causes for which a turtle refuses it. -/
theorem obey_eq_error_iff : s.obey bounds c = .error f ↔ Refuses bounds s.turtle c f := by
  constructor
  · intro h
    cases c with
    | penUp => cases h
    | penDown => cases h
    | rotate degrees =>
        rw [obey] at h
        split at h
        case h_1 => cases h
        case h_2 hr => cases h; exact .unaligned (Heading.rotate?_eq_none_iff.mp hr)
    | move units =>
        rw [obey, walk_eq] at h
        split at h
        case isTrue hlt => cases h; exact .tooLong hlt
        case isFalse hle =>
          split at h
          case h_1 => cases h
          case h_2 p hp => cases h; exact .leaves (UInt32.not_lt.mp hle) hp
  · intro h
    cases h with
    | unaligned hd => rw [obey, Heading.rotate?_eq_none_iff.mpr hd]
    | tooLong hlt => rw [obey, if_pos hlt]
    | leaves hle hp =>
        rw [Turtle.steps] at hp
        rw [obey, if_neg (UInt32.not_lt.mpr hle), walk_eq, hp]

/-- The turtle obeys a command as it does without a record. -/
theorem Obeys.turtle (h : Obeys bounds s c u) : u.turtle = s.turtle.obey c := by
  cases h with
  | penUp => exact s.turtle_setPen .up
  | penDown => exact s.turtle_setPen .down
  | rotate hr =>
      have : s.turtle.rotate? _ = some _ := congrArg (Option.map _) hr
      rw [Turtle.obey, this]
      rfl
  | @move units _ _ =>
      have htip : (s.leg.through (s.turtle.stretch units.toNat)).tip =
          s.turtle.pointAhead units.toNat := by
        cases units.toNat with
        | zero => exact s.turtle.pointAhead_zero.symm
        | succ n => rw [Turtle.stretch_concat, Leg.tip_through_concat]
      simp only [turtle, along, Turtle.steps, Turtle.obey, Leg.pen_through] at htip ⊢
      rw [htip]

/-! ### Runs -/

/-- What every command keeps holds after a run; `P` says it of the commands obeyed so far and the
record they leave. -/
theorem run_keeps {P : List Command → Sketch → Prop} (done : List Command)
    (hstep : ∀ {done s c u}, P done s → s.obey bounds c = .ok u → P (done ++ [c]) u)
    {cs : List Command} {index : Nat} (hs : P done s)
    (hr : s.run bounds index cs = .ok u) : P (done ++ cs) u := by
  induction cs generalizing s done index with
  | nil =>
      cases hr
      rwa [List.append_nil]
  | cons c cs ih =>
      rw [run] at hr
      split at hr
      case h_1 t ho =>
        rw [← List.singleton_append, ← List.append_assoc]
        exact ih (done ++ [c]) (hstep hs ho) hr
      case h_2 => cases hr

/-- The turtle goes through a run as it does without a record. -/
theorem turtle_run {cs : List Command} {index : Nat} (h : s.run bounds index cs = .ok u) :
    u.turtle = s.turtle.after cs := by
  refine run_keeps (P := fun done t => t.turtle = s.turtle.after done) [] ?_ rfl h
  intro done t c v ht ho
  rw [(obey_eq_ok_iff.mp ho).turtle, ht, Turtle.after_append]
  rfl

/-- A run that fails has obeyed the commands before the one that is refused. -/
theorem run_eq_error_iff {cs : List Command} {index : Nat} {e : ReplayError} :
    s.run bounds index cs = .error e ↔
      ∃ done c rest u, cs = done ++ c :: rest ∧ s.run bounds index done = .ok u ∧
        u.obey bounds c = .error e.fault ∧ e.index = index + done.length := by
  constructor
  · intro h
    induction cs generalizing s index with
    | nil => cases h
    | cons c cs ih =>
        rw [run] at h
        split at h
        case h_1 t ho =>
          obtain ⟨done, d, rest, u, rfl, hrun, hfault, hindex⟩ := ih h
          refine ⟨c :: done, d, rest, u, rfl, by rw [run, ho]; exact hrun, hfault, ?_⟩
          rw [hindex, List.length_cons]
          omega
        case h_2 fault ho =>
          cases h
          exact ⟨[], c, cs, s, rfl, rfl, ho, rfl⟩
  · rintro ⟨done, c, rest, u, rfl, hrun, hfault, hindex⟩
    rw [run_append hrun, run, hfault, ← hindex]

end Sketch

end PenPlotter
