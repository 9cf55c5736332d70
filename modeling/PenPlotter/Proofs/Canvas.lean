import PenPlotter.Replay

/-!
# What a replay records

A replay on a canvas refuses every step that leads off it, so it records no point off the canvas, as
long as the origin, where every replay begins, is on it (`holds_of_replayWithin`).  The invariant is
`Sketch.Within`: every point of every leg, open or finished, is on the canvas.

The inked points of a trace are the points of its strokes (`Trace.mem_inked`).
-/

namespace PenPlotter

namespace Sketch

/-- Every point recorded so far is on the canvas. -/
def Within (canvas : Dimensions) (s : Sketch) : Prop :=
  ∀ l ∈ s.leg :: s.finished, ∀ p ∈ l.points, canvas.Holds p

variable {canvas : Dimensions} {s t : Sketch}

theorem within_fresh (h : canvas.Holds (0, 0)) : Within canvas fresh := by
  intro l hl p hp
  obtain rfl := List.mem_singleton.mp hl
  obtain rfl := List.mem_singleton.mp hp
  exact h

theorem Within.setPen (h : Within canvas s) (pen : Pen) : Within canvas (s.setPen pen) := by
  rw [Sketch.setPen]
  split
  · exact h
  · refine List.forall_mem_cons.mpr ⟨fun p hp => ?_, h⟩
    obtain rfl := List.mem_singleton.mp hp
    exact h s.leg List.mem_cons_self s.leg.tip (List.mem_reverse.mpr List.mem_cons_self)

theorem Within.extend {q : Point} (h : Within canvas s) (hq : canvas.Holds q) :
    Within canvas { s with leg := s.leg.extend q } := by
  obtain ⟨hleg, hfinished⟩ := List.forall_mem_cons.mp h
  refine List.forall_mem_cons.mpr ⟨fun p hp => ?_, hfinished⟩
  rw [Leg.points_extend, List.mem_append, List.mem_singleton] at hp
  rcases hp with hp | rfl
  · exact hleg p hp
  · exact hq

theorem Within.walk {n : Nat} (h : Within canvas s) (hw : s.walk (some canvas) n = .ok t) :
    Within canvas t := by
  induction n generalizing s with
  | zero =>
      cases hw
      exact h
  | succ n ih =>
      rw [Sketch.walk] at hw
      split at hw
      case isFalse => cases hw
      case isTrue hallow =>
        exact ih (h.extend (hallow canvas rfl)) hw

/-- No command records a point off the canvas. -/
theorem Within.obey {c : Command} (h : Within canvas s) (ho : s.obey (some canvas) c = .ok t) :
    Within canvas t := by
  cases c with
  | penUp =>
      cases ho
      exact h.setPen .up
  | penDown =>
      cases ho
      exact h.setPen .down
  | rotate degrees =>
      rw [Sketch.obey] at ho
      split at ho
      · cases ho
        exact h
      · cases ho
  | move units =>
      rw [Sketch.obey] at ho
      split at ho
      · cases ho
      · exact h.walk ho

theorem Within.run {cs : List Command} (h : Within canvas s) :
    ∀ {index : Nat}, s.run (some canvas) index cs = .ok t → Within canvas t := by
  induction cs generalizing s with
  | nil =>
      intro index hr
      cases hr
      exact h
  | cons c cs ih =>
      intro index hr
      rw [Sketch.run] at hr
      cases ho : s.obey (some canvas) c with
      | error fault => rw [ho] at hr; cases hr
      | ok u =>
          rw [ho] at hr
          exact ih (h.obey ho) hr

theorem Within.trace (h : Within canvas s) {leg : List Point}
    (hleg : leg ∈ s.trace.strokes ∨ leg ∈ s.trace.travel) : ∀ p ∈ leg, canvas.Holds p := by
  have hlegs : ∀ l ∈ s.legs, ∀ p ∈ l.points, canvas.Holds p := fun l hl =>
    h l (List.mem_reverse.mp hl)
  rcases hleg with hleg | hleg
  · obtain ⟨l, hl, rfl⟩ := List.mem_map.mp hleg
    exact hlegs l (List.mem_filter.mp hl).1
  · obtain ⟨l, hl, rfl⟩ := List.mem_map.mp hleg
    exact hlegs l (List.mem_filter.mp hl).1

end Sketch

/-- **A replay on a canvas records no point off it.** -/
theorem holds_of_replayWithin {canvas : Dimensions} {cs : List Command} {t : Trace}
    (horigin : canvas.Holds (0, 0)) (h : replayWithin cs canvas = .ok t) {leg : List Point}
    (hleg : leg ∈ t.strokes ∨ leg ∈ t.travel) : ∀ p ∈ leg, canvas.Holds p := by
  rw [replayWithin, replayIn] at h
  cases hr : Sketch.fresh.run (some canvas) 0 cs with
  | error e => rw [hr] at h; cases h
  | ok s =>
      rw [hr] at h
      cases h
      exact ((Sketch.within_fresh horigin).run hr).trace hleg

/-! ### Inked points -/

theorem mem_eraseRepsBy_loop {α : Type} [BEq α] [LawfulBEq α] {a x : α} {as acc : List α} :
    x ∈ List.eraseRepsBy.loop (· == ·) a as acc ↔ x ∈ acc ∨ x = a ∨ x ∈ as := by
  induction as generalizing a acc with
  | nil => simp [List.eraseRepsBy.loop, or_comm]
  | cons b as ih =>
      rw [List.eraseRepsBy.loop]
      split
      case h_1 heq =>
        obtain rfl := eq_of_beq heq
        simp [ih]
      case h_2 =>
        rw [ih, List.mem_cons, List.mem_cons]
        simp [or_assoc, or_left_comm]

theorem mem_eraseReps {α : Type} [BEq α] [LawfulBEq α] {x : α} {as : List α} :
    x ∈ as.eraseReps ↔ x ∈ as := by
  cases as with
  | nil => rfl
  | cons a as => simp [List.eraseReps, List.eraseRepsBy, mem_eraseRepsBy_loop]

/-- The inked points are the points of the strokes. -/
theorem Trace.mem_inked {t : Trace} {p : Point} :
    p ∈ t.inked ↔ ∃ stroke ∈ t.strokes, p ∈ stroke := by
  rw [inked, mem_eraseReps, List.mem_mergeSort, List.mem_flatten]

end PenPlotter
