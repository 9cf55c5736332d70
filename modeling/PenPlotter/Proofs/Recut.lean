import PenPlotter.Proofs.Faults

/-!
# One motion cut into other commands

A replay depends on the motion alone, not on how it is cut into commands.  `Recut t xs ys` lists the
ways in which commands `xs` can be cut into others, `ys`, behind which a turtle `t` cannot be told
apart: two moves can be joined if the whole is no longer than a single move may be, and so can two
turns; a move of no units, a turn by full circles, and a command for the pen that is where it should
be can be left out.

Whether and why a replay fails does not depend on how the commands are counted: up to the place of
the command that fails, a run is a monadic fold (`run_mapError_fault`).  Hence commands that lead
every record to the same record, or to the same fault, can be exchanged between any others
(`foldlM_obey_of_recut`).

**Main statement** (`replayIn_recut`): recutting commands in the middle of a replay changes nothing
but the places at which the commands behind stand.
-/

namespace PenPlotter

/-- The heading of an angle has it, up to full circles. -/
theorem Heading.degrees_of_ofDegrees? {angle : Int} {h : Heading} (e : ofDegrees? angle = some h) :
    h.degrees = angle % 360 := by
  simpa [ofDegrees?] using List.find?_some e

/-- A turn after a turn leads where the one turn leads that makes up for both, up to full
circles. -/
theorem Heading.rotate?_of_rotate? {g h : Heading} {a b c : Int16} (hg : g.rotate? a = some h)
    (hc : c.toInt % 360 = (a.toInt + b.toInt) % 360) : h.rotate? b = g.rotate? c := by
  have hh := degrees_of_ofDegrees? hg
  have hangle : (h.degrees + b.toInt) % 360 = (g.degrees + c.toInt) % 360 := by omega
  simp only [rotate?, ofDegrees?, hangle]

theorem Heading.rotate?_circle {h : Heading} {a : Int16} (ha : 360 ∣ a.toInt) :
    h.rotate? a = some h := by
  obtain ⟨k, hk⟩ := ha
  rw [rotate?, hk, ofDegrees?_add_turn]

/-- Ways to cut a motion of a turtle into other commands. -/
inductive Recut (t : Turtle) : List Command → List Command → Prop where
  /-- Two moves are joined to one that is not too long. -/
  | moves {m n : UInt32} : m.toNat + n.toNat ≤ maxUnits.toNat →
      Recut t [.move m, .move n] [.move (m + n)]
  /-- Two turns are joined to one that makes up for both, up to full circles. -/
  | turns {a b c : Int16} : 90 ∣ a.toInt → 90 ∣ b.toInt →
      c.toInt % 360 = (a.toInt + b.toInt) % 360 → Recut t [.rotate a, .rotate b] [.rotate c]
  /-- A move of no units is left out. -/
  | stay : Recut t [.move 0] []
  /-- A turn by full circles is left out. -/
  | circle {a : Int16} : 360 ∣ a.toInt → Recut t [.rotate a] []
  /-- A pen that is up is not lifted. -/
  | lift : t.pen = .up → Recut t [.penUp] []
  /-- A pen that is down is not lowered. -/
  | lower : t.pen = .down → Recut t [.penDown] []

namespace Sketch

variable {bounds : Option Dimensions} {s : Sketch} {xs ys : List Command}

/-- Up to the place of the command that fails, a run is a fold. -/
theorem run_mapError_fault (bounds : Option Dimensions) (index : Nat) (cs : List Command)
    (s : Sketch) :
    (s.run bounds index cs).mapError ReplayError.fault = cs.foldlM (obey bounds) s := by
  induction cs generalizing s index with
  | nil => rfl
  | cons c cs ih =>
      rw [run, List.foldlM_cons]
      cases s.obey bounds c with
      | ok t => exact ih (index + 1) t
      | error f => rfl

/-- A walk can be interrupted anywhere. -/
theorem walk_add (bounds : Option Dimensions) (m n : Nat) (s : Sketch) :
    s.walk bounds (m + n) = s.walk bounds m >>= walk bounds n := by
  induction m generalizing s with
  | zero => rw [Nat.zero_add]; rfl
  | succ m ih =>
      rw [Nat.succ_add, walk, walk]
      split
      · exact ih _
      · rfl

/-- A move that is not too long is a walk. -/
theorem obey_move {units : UInt32} (h : units.toNat ≤ maxUnits.toNat) :
    s.obey bounds (.move units) = s.walk bounds units.toNat := by
  rw [obey, if_neg (UInt32.not_lt.mpr (UInt32.le_iff_toNat_le.mpr h))]

theorem obey_rotate {degrees : Int16} {h : Heading} (hr : s.heading.rotate? degrees = some h) :
    s.obey bounds (.rotate degrees) = .ok { s with heading := h } := by
  rw [obey, hr]

theorem setPen_of_pen {pen : Pen} (h : s.turtle.pen = pen) : s.setPen pen = s := if_pos h

/-- **Commands and what they are recut to lead a record alike.** -/
theorem foldlM_obey_of_recut (h : Recut s.turtle xs ys) :
    xs.foldlM (obey bounds) s = ys.foldlM (obey bounds) s := by
  cases h with
  | @moves m n hmn =>
      have hsum : (m + n).toNat = m.toNat + n.toNat := by
        have hmax : maxUnits.toNat = 65536 := rfl
        rw [UInt32.toNat_add]
        omega
      have hm : m.toNat ≤ maxUnits.toNat := by omega
      have hn : n.toNat ≤ maxUnits.toNat := by omega
      have hobey : (fun t : Sketch => t.obey bounds (.move n)) = walk bounds n.toNat :=
        funext fun t => obey_move hn
      simp only [List.foldlM_cons, List.foldlM_nil, bind_pure]
      rw [obey_move hm, hobey, obey_move (hsum ▸ hmn), hsum, walk_add]
  | @turns a b c ha hb hc =>
      obtain ⟨h, hh⟩ := Option.ne_none_iff_exists'.mp
        (Heading.rotate?_eq_none_iff (h := s.heading).not.mpr (not_not.mpr ha))
      obtain ⟨k, hk⟩ := Option.ne_none_iff_exists'.mp
        (Heading.rotate?_eq_none_iff (h := h).not.mpr (not_not.mpr hb))
      have hjoined : s.heading.rotate? c = some k :=
        (Heading.rotate?_of_rotate? hh hc).symm.trans hk
      simp only [List.foldlM_cons, List.foldlM_nil, bind_pure]
      rw [obey_rotate hh, obey_rotate hjoined]
      show obey bounds { s with heading := h } (.rotate b) = _
      rw [obey_rotate hk]
  | stay => rfl
  | circle ha =>
      rw [List.foldlM_cons, obey_rotate (Heading.rotate?_circle ha)]
      rfl
  | lift hpen =>
      rw [List.foldlM_cons, obey, setPen_of_pen hpen]
      rfl
  | lower hpen =>
      rw [List.foldlM_cons, obey, setPen_of_pen hpen]
      rfl

end Sketch

/-! ### Replays -/

section Replay

variable {bounds : Option Dimensions} {cs as xs ys : List Command} {t : Trace} {f : Fault} {i : Nat}

theorem replayIn_eq_ok_iff_foldlM :
    replayIn bounds cs = .ok t ↔
      ∃ s, cs.foldlM (Sketch.obey bounds) .fresh = .ok s ∧ s.trace = t := by
  rw [replayIn, ← Sketch.run_mapError_fault bounds 0]
  cases Sketch.fresh.run bounds 0 cs <;> simp [Except.map, Except.mapError]

theorem exists_replayIn_eq_error_iff :
    (∃ i, replayIn bounds cs = .error ⟨i, f⟩) ↔
      cs.foldlM (Sketch.obey bounds) .fresh = .error f := by
  rw [replayIn, ← Sketch.run_mapError_fault bounds 0]
  cases Sketch.fresh.run bounds 0 cs with
  | ok s => simp [Except.map, Except.mapError]
  | error e =>
      obtain ⟨i, g⟩ := e
      simp [Except.map, Except.mapError]

/-- Recut commands can be exchanged between any others. -/
theorem foldlM_recut (h : ∀ t, replayIn bounds as = .ok t → Recut t.turtle xs ys)
    (bs : List Command) :
    (as ++ xs ++ bs).foldlM (Sketch.obey bounds) .fresh =
      (as ++ ys ++ bs).foldlM (Sketch.obey bounds) .fresh := by
  simp only [List.foldlM_append, bind_assoc]
  cases has : as.foldlM (Sketch.obey bounds) .fresh with
  | error f => rfl
  | ok s =>
      have hrecut : Recut s.turtle xs ys :=
        h s.trace (replayIn_eq_ok_iff_foldlM.mpr ⟨s, has, rfl⟩)
      exact congrArg (· >>= bs.foldlM (Sketch.obey bounds)) (Sketch.foldlM_obey_of_recut hrecut)

/-- A replay fails at a command that the turtle refuses after a replay of those before. -/
theorem replayIn_eq_error_iff_refuses :
    replayIn bounds cs = .error ⟨i, f⟩ ↔
      ∃ t c, replayIn bounds (cs.take i) = .ok t ∧ cs[i]? = some c ∧
        Refuses bounds t.turtle c f := by
  rw [replayIn_eq_error_iff_refused]
  constructor
  · rintro ⟨⟨t, ht, hturtle⟩, c, hc, hf⟩
    exact ⟨t, c, ht, hc, hturtle ▸ hf⟩
  · rintro ⟨t, c, ht, hc, hf⟩
    obtain ⟨s, hs, rfl⟩ := replayIn_eq_ok_iff.mp ht
    have hturtle : s.trace.turtle = Turtle.fresh.after (cs.take i) := Sketch.turtle_run hs
    exact ⟨⟨s.trace, ht, hturtle⟩, c, hc, hturtle ▸ hf⟩

/-- Whether a replay fails at a command does not depend on those behind it. -/
theorem replayIn_append_eq_error_iff_of_lt {bs : List Command} (hi : i < as.length) :
    replayIn bounds (as ++ bs) = .error ⟨i, f⟩ ↔ replayIn bounds as = .error ⟨i, f⟩ := by
  rw [replayIn_eq_error_iff_refuses, replayIn_eq_error_iff_refuses,
    List.take_append_of_le_length (Nat.le_of_lt hi), List.getElem?_append_left hi]

/-- A replay fails at a command of the second part after a replay of the first and of what comes
before. -/
theorem replayIn_append_eq_error_iff {bs : List Command} :
    replayIn bounds (cs ++ bs) = .error ⟨cs.length + i, f⟩ ↔
      ∃ t c, replayIn bounds (cs ++ bs.take i) = .ok t ∧ bs[i]? = some c ∧
        Refuses bounds t.turtle c f := by
  rw [replayIn_eq_error_iff_refuses, List.take_length_add_append,
    List.getElem?_append_right (Nat.le_add_right _ _), Nat.add_sub_cancel_left]

end Replay

/-- **A replay does not depend on how a motion is cut into commands.**  Let commands be recut in the
middle of a replay, behind the turtle that the commands before leave, if they do not fail.  Then the
replay succeeds as it did, with the same trace, or fails as it did, for the same cause: the same
turn, the same move, the same first point off the canvas.  Only the commands behind stand at other
places; a failure at one of them, or at one before, is a failure at the same command. -/
theorem replayIn_recut {bounds : Option Dimensions} {as xs ys : List Command}
    (h : ∀ t, replayIn bounds as = .ok t → Recut t.turtle xs ys) (bs : List Command) :
    (∀ t, replayIn bounds (as ++ xs ++ bs) = .ok t ↔ replayIn bounds (as ++ ys ++ bs) = .ok t) ∧
      (∀ f, (∃ i, replayIn bounds (as ++ xs ++ bs) = .error ⟨i, f⟩) ↔
        ∃ i, replayIn bounds (as ++ ys ++ bs) = .error ⟨i, f⟩) ∧
      (∀ f, ∀ i < as.length, replayIn bounds (as ++ xs ++ bs) = .error ⟨i, f⟩ ↔
        replayIn bounds (as ++ ys ++ bs) = .error ⟨i, f⟩) ∧
      ∀ f i, replayIn bounds (as ++ xs ++ bs) = .error ⟨(as ++ xs).length + i, f⟩ ↔
        replayIn bounds (as ++ ys ++ bs) = .error ⟨(as ++ ys).length + i, f⟩ := by
  have hok : ∀ bs t, replayIn bounds (as ++ xs ++ bs) = .ok t ↔
      replayIn bounds (as ++ ys ++ bs) = .ok t := by
    intro bs t
    rw [replayIn_eq_ok_iff_foldlM, replayIn_eq_ok_iff_foldlM, foldlM_recut h]
  refine ⟨hok bs, fun f => ?_, fun f i hi => ?_, fun f i => ?_⟩
  · rw [exists_replayIn_eq_error_iff, exists_replayIn_eq_error_iff, foldlM_recut h]
  · rw [List.append_assoc, List.append_assoc, replayIn_append_eq_error_iff_of_lt hi,
      replayIn_append_eq_error_iff_of_lt hi]
  · simp only [replayIn_append_eq_error_iff, hok]

/-- The pen is down already; the last move leaves the canvas. -/
theorem replayIn_recut_lower :
    (∀ t, replayIn (some ⟨3, 1⟩) [.penDown, .move 1] = .ok t →
        Recut t.turtle [.penDown] []) ∧
      replayIn (some ⟨3, 1⟩) [.penDown, .move 1, .move 1, .move 9] =
        .error ⟨3, .offCanvas (3, 0)⟩ ∧
      replayIn (some ⟨3, 1⟩) [.penDown, .move 1, .penDown, .move 1, .move 9] =
        .error ⟨4, .offCanvas (3, 0)⟩ := by
  have hrecut : ∀ t, replayIn (some ⟨3, 1⟩) [.penDown, .move 1] = .ok t →
      Recut t.turtle [.penDown] [] := by
    intro t ht
    have hdown : replayIn (some ⟨3, 1⟩) [.penDown, .move 1] =
        .ok ⟨⟨(1, 0), .right, .down⟩, [[(0, 0), (1, 0)]], []⟩ := by decide
    rw [hdown] at ht
    cases ht
    exact .lower rfl
  have hfails : replayIn (some ⟨3, 1⟩) [.penDown, .move 1, .move 1, .move 9] =
      .error ⟨3, .offCanvas (3, 0)⟩ := by decide
  obtain ⟨-, -, -, hbehind⟩ := replayIn_recut hrecut [.move 1, .move 9]
  exact ⟨hrecut, hfails, (hbehind (.offCanvas (3, 0)) 1).mpr hfails⟩

end PenPlotter
