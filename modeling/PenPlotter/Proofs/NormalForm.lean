import PenPlotter.Command.Token
import PenPlotter.Drawing
import PenPlotter.Replay

/-!
# Normal forms of commands

The token of a command is read as its normal form (`Command.ofToken_token`), and whatever is read is
in normal form already (`Command.normal_of_ofToken`).  Normal forms differ from what they stand for
in the size of turns only: a replay obeys them alike, and reports a turn by no multiple of 90 degrees
at the same command, by its normal degrees (`replayIn_normal`).  Drawing needs no other commands
(`normal_compileIslands`).
-/

namespace PenPlotter

theorem normalTurn_congr {a b : Int} (h : a % 360 = b % 360) : normalTurn a = normalTurn b := by
  simp only [normalTurn, h]

theorem normalTurn_eq_self_iff {t : Int16} :
    normalTurn t.toInt = t ↔ -180 < t.toInt ∧ t.toInt ≤ 180 :=
  ⟨fun h => h ▸ normalTurn_range t.toInt, fun h => normalTurn_toInt h.1 h.2⟩

namespace Command

/-- The command is in normal form if its turn, if it is one, is. -/
theorem normal_eq_self_iff {c : Command} :
    c.normal = c ↔ ∀ t, c = rotate t → -180 < t.toInt ∧ t.toInt ≤ 180 := by
  cases c with
  | rotate t => simp [normal, normalTurn_eq_self_iff]
  | _ => simp [normal]

/-! ### Tokens -/

theorem magnitude?_natAbs (t : Int16) :
    ∃ m : UInt32, m.toNat = t.toInt.natAbs ∧
      magnitude? (Numeric.digits t.toInt.natAbs) = some m := by
  have hlt : t.toInt.natAbs < UInt32.size := by
    have h₁ := t.le_toInt
    have h₂ := t.toInt_lt
    simp only [UInt32.size]
    omega
  have hm : (UInt32.ofNat t.toInt.natAbs).toNat = t.toInt.natAbs := UInt32.toNat_ofNat_of_lt hlt
  have hdigits := magnitude?_digits (UInt32.ofNat t.toInt.natAbs)
  rw [hm] at hdigits
  exact ⟨UInt32.ofNat t.toInt.natAbs, hm, hdigits⟩

/-- The token of a command is read as its normal form. -/
theorem ofToken_token (c : Command) : ofToken c.token = .ok c.normal := by
  rw [ofToken, token, String.toList_ofList]
  cases c with
  | penUp => rfl
  | penDown => rfl
  | move units => simp only [tokenChars, magnitude?_digits, normal]
  | rotate t =>
      obtain ⟨m, hm, hmagnitude⟩ := magnitude?_natAbs t
      -- The magnitude is taken modulo a full circle before it is given its sign.
      by_cases ht : t < 0
      · have hneg : t.toInt < 0 := Int16.lt_iff_toInt_lt.mp ht
        have hcongr : (-1 * ((m.toNat % 360 : Nat) : Int)) % 360 = t.toInt % 360 := by omega
        simp only [tokenChars, ht, if_true, hmagnitude, normal, normalTurn_congr hcongr]
      · have hpos : 0 ≤ t.toInt := Int16.le_iff_toInt_le.mp (Int16.not_lt.mp ht)
        have hcongr : (1 * ((m.toNat % 360 : Nat) : Int)) % 360 = t.toInt % 360 := by omega
        simp only [tokenChars, ht, if_false, hmagnitude, normal, normalTurn_congr hcongr]

/-- What is read from a token is in normal form. -/
theorem normal_of_ofToken {token : String} {c : Command} (h : ofToken token = .ok c) :
    c.normal = c := by
  have hturn : ∀ d : Int, (rotate (normalTurn d)).normal = rotate (normalTurn d) := fun d => by
    rw [normal, normalTurn_eq_self_iff.mpr (normalTurn_range d)]
  simp only [ofToken] at h
  split at h
  · cases h
  · cases h; rfl
  · cases h; rfl
  · -- A turn to the right.
    split at h <;> cases h
    exact hturn _
  · -- A turn to the left.
    split at h <;> cases h
    exact hturn _
  · split at h <;> cases h
    rfl
  · cases h

end Command

/-- The program with its commands in normal form. -/
def Program.normal (p : Program) : Program := { p with commands := p.commands.map Command.normal }

/-- A program is in normal form if its turns are. -/
theorem Program.normal_eq_self_iff {p : Program} :
    p.normal = p ↔ ∀ t, .rotate t ∈ p.commands → -180 < t.toInt ∧ t.toInt ≤ 180 := by
  have hcommands : p.commands.map Command.normal = p.commands ↔
      ∀ c ∈ p.commands, c.normal = c := by
    simpa using List.map_inj_left (f := Command.normal) (g := id) (l := p.commands)
  obtain ⟨commands, dimensions⟩ := p
  simp only [normal, Program.mk.injEq, and_true, hcommands, Command.normal_eq_self_iff]
  exact ⟨fun h t ht => h _ ht t rfl, fun h c hc t ht => h t (ht ▸ hc)⟩

/-! ### Replaying -/

/-- The fault with the degrees of a turn in normal form. -/
def Fault.normal : Fault → Fault
  | .unalignedRotation degrees => .unalignedRotation (normalTurn degrees.toInt)
  | f => f

/-- The error with the degrees of a turn in normal form. -/
def ReplayError.normal (e : ReplayError) : ReplayError := { e with fault := e.fault.normal }

theorem Sketch.walk_mapError_normal (bounds : Option Dimensions) (n : Nat) (s : Sketch) :
    (s.walk bounds n).mapError Fault.normal = s.walk bounds n := by
  induction n generalizing s with
  | zero => rfl
  | succ n ih =>
      simp only [walk]
      split
      · exact ih _
      · rfl

/-- A command and its normal form are obeyed alike. -/
theorem Sketch.obey_normal (bounds : Option Dimensions) (s : Sketch) (c : Command) :
    s.obey bounds c.normal = (s.obey bounds c).mapError Fault.normal := by
  cases c with
  | penUp => rfl
  | penDown => rfl
  | rotate t =>
      simp only [Command.normal, obey, Heading.rotate?_normalTurn]
      cases s.heading.rotate? t <;> rfl
  | move units =>
      simp only [Command.normal, obey]
      split
      · rfl
      · exact (walk_mapError_normal _ _ _).symm

theorem Sketch.run_normal (bounds : Option Dimensions) (index : Nat) (cs : List Command)
    (s : Sketch) :
    s.run bounds index (cs.map Command.normal)
      = (s.run bounds index cs).mapError ReplayError.normal := by
  induction cs generalizing s index with
  | nil => rfl
  | cons c cs ih =>
      simp only [List.map_cons, run, obey_normal]
      cases s.obey bounds c with
      | error f => rfl
      | ok t => exact ih (index + 1) t

/-- Commands and their normal forms are replayed alike. -/
theorem replayIn_normal (bounds : Option Dimensions) (cs : List Command) :
    replayIn bounds (cs.map Command.normal)
      = (replayIn bounds cs).mapError ReplayError.normal := by
  rw [replayIn, replayIn, Sketch.run_normal]
  cases Sketch.fresh.run bounds 0 cs <;> rfl

/-! ### Drawing -/

namespace Draft

/-- The commands of the draft are in normal form. -/
def Normal (d : Draft) : Prop := ∀ c ∈ d.commands, c.normal = c

theorem normal_turnTo? {g h : Heading} {t : Int16} (ht : g.turnTo? h = some t) :
    (Command.rotate t).normal = .rotate t := by
  cases g <;> cases h <;> cases ht <;> rfl

variable {d : Draft}

theorem normal_push {plotter : PlotterState} (hd : d.Normal) {c : Command} (hc : c.normal = c) :
    Normal ⟨plotter, d.commands.push c⟩ := by
  intro b hb
  rcases Array.mem_push.mp hb with hb | rfl
  · exact hd b hb
  · exact hc

theorem normal_stepToward (hd : d.Normal) (goal : Pixel) : (d.stepToward goal).Normal := by
  refine normal_push ?_ rfl
  rw [face]
  split
  · exact hd
  · rename_i t ht
    exact normal_push hd (normal_turnTo? ht)

theorem normal_walkTo (hd : d.Normal) (goal : Pixel) : (d.walkTo goal).Normal := by
  fun_induction walkTo d goal with
  | case1 d h => exact hd
  | case2 d h ih => exact ih (normal_stepToward hd goal)

theorem normal_drawIsland (hd : d.Normal) (i : Island) : (d.drawIsland i).Normal := by
  rw [drawIsland]
  split
  · exact hd
  · rename_i entry rest _
    have hlift : d.lift.Normal := normal_push hd rfl
    have hlower : (d.lift.walkTo entry).lower.Normal :=
      normal_push (normal_walkTo hlift entry) rfl
    exact List.foldlRecOn rest walkTo hlower fun _ he goal _ => normal_walkTo he goal

end Draft

/-- A program that draws islands has commands in normal form only. -/
theorem normal_compileIslands (islands : List Island) (dimensions : Dimensions) :
    ∀ c ∈ (compileIslands islands dimensions).commands, c.normal = c := by
  have hstart : (Draft.start .fresh).Normal := by simp [Draft.Normal, Draft.start]
  have hend : ((Draft.start .fresh).drawAll (planTour islands Pixel.origin)).Normal :=
    List.foldlRecOn _ _ hstart fun _ he i _ => Draft.normal_drawIsland he i
  exact fun c hc => hend c (Array.mem_toList_iff.mp hc)

end PenPlotter
