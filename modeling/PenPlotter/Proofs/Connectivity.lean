import PenPlotter.Island.Extraction
import PenPlotter.Proofs.RowMajor

/-!
# Connected pixels of a mask

Two pixels are *adjacent* when they share an edge, that is, when their distance along the axes is
one.  `m.Joined p q` holds when a path of inked pixels of `m`, each adjacent to the one before,
leads from `p` to `q`; the *component* of an inked pixel is the set of the pixels it is joined to.

* `adjacent_iff_step?`: the pixels adjacent to `p` are the ones a step from `p` arrives at, so the
  neighbours a flood looks at are the adjacent pixels (`mem_inkedNeighbours`).
* `Joined.symm`, `Joined.trans`: being joined is an equivalence on the inked pixels.
* `Joined.of_closed`: a set of pixels that every adjacent inked pixel belongs to holds with a pixel
  all the pixels joined to it.
-/

namespace PenPlotter

namespace Pixel

/-! ### Adjacent pixels -/

/-- The pixels share an edge. -/
def Adjacent (p q : Pixel) : Prop := p.manhattan q = 1

instance (p q : Pixel) : Decidable (p.Adjacent q) := inferInstanceAs (Decidable (_ = _))

theorem manhattan_eq_zero_iff {p q : Pixel} : p.manhattan q = 0 ↔ p = q := by
  constructor
  · intro h
    rw [manhattan_eq_natAbs] at h
    exact eq_of_dx_dy (by omega) (by omega)
  · rintro rfl
    simp only [manhattan_eq_natAbs, dx, dy]
    omega

theorem manhattan_comm (p q : Pixel) : p.manhattan q = q.manhattan p := by
  simp only [manhattan_eq_natAbs, dx, dy]
  omega

theorem Adjacent.symm {p q : Pixel} (h : p.Adjacent q) : q.Adjacent p :=
  (manhattan_comm q p).trans h

theorem Adjacent.ne {p q : Pixel} (h : p.Adjacent q) : p ≠ q := by
  rintro rfl
  rw [Adjacent, manhattan_eq_zero_iff.mpr rfl] at h
  cases h

/-- A step along which some way remains does not meet the edge of the coordinate range. -/
theorem step?_eq_some {p q : Pixel} {h : Heading} (hway : 0 < h.wayAlong (p.dx q) (p.dy q)) :
    p.step? h = some (p.step h) := by
  have hs := point_step hway
  refine if_neg ?_
  cases h <;> simp only [step, point, Heading.unitStep, Prod.mk.injEq] at hs <;>
    simp only [beq_iff_eq, ← UInt32.toNat_inj, UInt32.toNat_zero]
  case right | down | left | up => omega

/-- A step that stays in the coordinate range moves along the lattice step of its heading. -/
theorem point_of_step? {p q : Pixel} {h : Heading} (hs : p.step? h = some q) :
    q.point = (p.point.1 + h.unitStep.1, p.point.2 + h.unitStep.2) := by
  have hx := p.x.toNat_lt
  have hy := p.y.toNat_lt
  cases h <;> simp only [step?, Option.ite_none_left_eq_some, beq_iff_eq, ← UInt32.toNat_inj,
    UInt32.toNat_zero, Option.some.injEq] at hs <;> obtain ⟨hne, rfl⟩ := hs
  case right | down =>
    rw [UInt32.toNat_add] at hne
    simp only [step, point, Heading.unitStep, UInt32.toNat_add, UInt32.toNat_one, Prod.mk.injEq]
      at hne ⊢
    omega
  case left | up =>
    have hpx := @toNat_sub_one p.x 0
    have hpy := @toNat_sub_one p.y 0
    simp only [step, point, Heading.unitStep, Prod.mk.injEq]
    omega

/-- The adjacent pixels are the ones a step arrives at. -/
theorem adjacent_iff_step? {p q : Pixel} : p.Adjacent q ↔ ∃ h, p.step? h = some q := by
  constructor
  · intro h
    have hway := wayAlong_headingTo_pos h.ne
    have hstep := manhattan_step hway
    rw [h] at hstep
    refine ⟨p.headingTo q, ?_⟩
    rw [step?_eq_some hway, manhattan_eq_zero_iff.mp (Nat.succ.inj hstep)]
  · rintro ⟨h, hs⟩
    have hq := point_of_step? hs
    simp only [point, Prod.mk.injEq] at hq
    rw [Adjacent, manhattan_eq_natAbs, dx, dy]
    cases h <;> simp only [Heading.unitStep] at hq <;> omega

end Pixel

namespace Mask

/-- The neighbours a flood looks at are the inked pixels that share an edge. -/
theorem mem_inkedNeighbours {m : Mask} {p q : Pixel} :
    q ∈ m.inkedNeighbours p ↔ p.Adjacent q ∧ m.get q = true := by
  have hall : ∀ h : Heading, h ∈ neighbourOrder := by
    intro h
    cases h <;> decide
  simp only [inkedNeighbours, List.mem_filter, List.mem_filterMap, hall, true_and,
    Pixel.adjacent_iff_step?]

/-! ### Joined pixels -/

/-- A path of inked pixels, each adjacent to the one before, leads from `p` to `q`. -/
inductive Joined (m : Mask) (p : Pixel) : Pixel → Prop where
  | start : m.get p = true → Joined m p p
  | step {q r : Pixel} : Joined m p q → q.Adjacent r → m.get r = true → Joined m p r

namespace Joined

theorem inked_left {m : Mask} {p q : Pixel} (h : m.Joined p q) : m.get p = true := by
  induction h with
  | start h => exact h
  | step _ _ _ ih => exact ih

theorem inked_right {m : Mask} {p q : Pixel} (h : m.Joined p q) : m.get q = true := by
  cases h with
  | start h => exact h
  | step _ _ h => exact h

theorem trans {m : Mask} {p q r : Pixel} (hpq : m.Joined p q) (hqr : m.Joined q r) :
    m.Joined p r := by
  induction hqr with
  | start => exact hpq
  | step _ ha hr ih => exact .step ih ha hr

theorem symm {m : Mask} {p q : Pixel} (h : m.Joined p q) : m.Joined q p := by
  induction h with
  | start h => exact .start h
  | step hpq ha hr ih => exact (Joined.step (.start hr) ha.symm hpq.inked_right).trans ih

theorem mono {m m' : Mask} (hm : ∀ p, m.get p = true → m'.get p = true) {p q : Pixel}
    (h : m.Joined p q) : m'.Joined p q := by
  induction h with
  | start h => exact .start (hm _ h)
  | step _ ha hr ih => exact .step ih ha (hm _ hr)

/-- A set that every inked pixel adjacent to a member belongs to holds with a pixel all the pixels
joined to it. -/
theorem of_closed {m : Mask} {S : Pixel → Prop}
    (hS : ∀ p q, S p → p.Adjacent q → m.get q = true → S q) {p q : Pixel} (hp : S p)
    (h : m.Joined p q) : S q := by
  induction h with
  | start => exact hp
  | step _ ha hr ih => exact hS _ _ ih ha hr

end Joined

end Mask

end PenPlotter
