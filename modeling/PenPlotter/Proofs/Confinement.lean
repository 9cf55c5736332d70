import PenPlotter.Proofs.Canvas
import PenPlotter.Proofs.Legs
import PenPlotter.Proofs.Numeric.Halves
import PenPlotter.Svg

/-!
# Confinement to a canvas

A replay on a canvas checks the point that a unit step reaches, but not the origin, where it begins.
On a canvas that holds the origin it therefore records no point off the canvas.  A canvas with an
empty side holds no point at all: no unit step can be taken on it (`path_eq_nil_of_not_holds`), and
every leg that is begun is the origin alone (`Leads.eq_singleton`), which is off the canvas.

In the picture, a point that is on the canvas is drawn as a unit square in the view box
(`Svg.drawn_of_holds`), as long as the middle of the square is a number of single precision.

**Main statement** (`replayWithin_records`): where the recorded points are, for every program whose
replay on its own canvas succeeds, whatever the size of that canvas.
-/

namespace PenPlotter

/-- A canvas with a point on it holds the origin. -/
theorem Dimensions.Holds.origin {canvas : Dimensions} {q : Point} (h : canvas.Holds q) :
    canvas.Holds (0, 0) := by
  obtain ⟨hx, hwidth, hy, hheight⟩ := h
  exact ⟨Int.le_refl 0, Int.lt_of_le_of_lt hx hwidth, Int.le_refl 0,
    Int.lt_of_le_of_lt hy hheight⟩

/-- Legs without a unit step stay where the first of them starts. -/
theorem Leads.eq_singleton {a b : Point} {legs : List (List Point)} (h : Leads a legs b)
    (hsteps : legs.flatMap List.tail = []) : ∀ leg ∈ legs, leg = [a] := by
  induction h with
  | nil => exact List.forall_mem_nil _
  | @cons a b c leg legs hhead hlast _ ih =>
      rw [List.flatMap_cons, List.append_eq_nil_iff] at hsteps
      obtain ⟨htail, hlegs⟩ := hsteps
      obtain ⟨rest, rfl⟩ := List.head?_eq_some_iff.mp hhead
      obtain rfl : rest = [] := htail
      obtain rfl : a = b := Option.some.inj hlast
      exact List.forall_mem_cons.mpr ⟨rfl, ih hlegs⟩

section Canvas

variable {canvas : Dimensions} {cs : List Command} {t : Trace}

/-- No unit step can be taken on a canvas that does not hold the origin. -/
theorem path_eq_nil_of_not_holds (horigin : ¬ canvas.Holds (0, 0))
    (h : replayWithin cs canvas = .ok t) : Turtle.fresh.path cs = [] := by
  obtain ⟨s, hs, -⟩ := replayIn_eq_ok_iff.mp h
  obtain ⟨-, hpath⟩ := Sketch.run_canvas_iff.mp hs
  exact List.eq_nil_iff_forall_not_mem.mpr fun q hq => horigin (hpath q hq).origin

/-- On a canvas that does not hold the origin a replay goes nowhere. -/
theorem eq_origin_of_not_holds (horigin : ¬ canvas.Holds (0, 0))
    (h : replayWithin cs canvas = .ok t) :
    t.travel = [] ∧ ∀ stroke ∈ t.strokes, stroke = [(0, 0)] := by
  obtain ⟨legs, hlegs⟩ := exists_legs_of_replayIn h
  have hsteps : (legs.map fun b => b.2.points).flatMap List.tail = [] := by
    rw [List.flatMap_map, hlegs.path, path_eq_nil_of_not_holds horigin h]
  have hall := hlegs.leads.eq_singleton hsteps
  have hkept {pen : Pen} {leg : List Point}
      (hleg : leg ∈ ((legs.map Prod.snd).filter fun l => l.pen = pen).map Leg.points) :
      leg = [(0, 0)] := by
    obtain ⟨l, hl, rfl⟩ := List.mem_map.mp hleg
    obtain ⟨b, hb, rfl⟩ := List.mem_map.mp (List.mem_filter.mp hl).1
    exact hall _ (List.mem_map.mpr ⟨b, hb, rfl⟩)
  constructor
  · refine List.eq_nil_iff_forall_not_mem.mpr fun leg hleg => ?_
    have hlong := two_le_length_travel h hleg
    rw [hlegs.travel] at hleg
    rw [hkept hleg] at hlong
    exact absurd hlong (by decide)
  · intro stroke hstroke
    rw [hlegs.strokes] at hstroke
    exact hkept hstroke

/-- What is recorded is on the canvas, or it is the origin. -/
theorem holds_or_eq_origin (h : replayWithin cs canvas = .ok t) {leg : List Point}
    (hleg : leg ∈ t.strokes ++ t.travel) {q : Point} (hq : q ∈ leg) :
    canvas.Holds q ∨ q = (0, 0) := by
  by_cases horigin : canvas.Holds (0, 0)
  · exact .inl (holds_of_replayWithin horigin h (List.mem_append.mp hleg) q hq)
  · obtain ⟨htravel, hstrokes⟩ := eq_origin_of_not_holds horigin h
    rw [htravel, List.append_nil] at hleg
    rw [hstrokes leg hleg] at hq
    exact .inr (List.mem_singleton.mp hq)

/-- All that is recorded is on the canvas, unless the pen is lowered on one with an empty side. -/
theorem forall_holds_iff (h : replayWithin cs canvas = .ok t) :
    (∀ leg ∈ t.strokes ++ t.travel, ∀ q ∈ leg, canvas.Holds q) ↔
      canvas.Holds (0, 0) ∨ t.strokes = [] := by
  constructor
  · intro hall
    refine or_iff_not_imp_left.mpr fun horigin => ?_
    obtain ⟨-, hstrokes⟩ := eq_origin_of_not_holds horigin h
    refine List.eq_nil_iff_forall_not_mem.mpr fun stroke hstroke => horigin ?_
    refine hall stroke (List.mem_append_left _ hstroke) (0, 0) ?_
    rw [hstrokes stroke hstroke]
    exact List.mem_singleton_self _
  · rintro (horigin | hnone) leg hleg q hq
    · exact holds_of_replayWithin horigin h (List.mem_append.mp hleg) q hq
    · by_cases horigin : canvas.Holds (0, 0)
      · exact holds_of_replayWithin horigin h (List.mem_append.mp hleg) q hq
      · rw [hnone, (eq_origin_of_not_holds horigin h).1] at hleg
        exact absurd hleg List.not_mem_nil

/-- A program that can be replayed on its canvas has a picture. -/
theorem svg_of_replayWithin {p : Program} (h : replayWithin p.commands p.dimensions = .ok t)
    (o : Svg.Options) : p.svg o = .ok (Svg.document p.dimensions t o).documentText := by
  rw [Program.svg, h]
  rfl

end Canvas

namespace Svg

open Numeric

/-- The interval of length one about the number lies between zero and the side. -/
def Spans (side : Nat) (middle : Single) : Prop :=
  middle.ratio.2 ≤ 2 * middle.ratio.1 ∧
    2 * middle.ratio.1 + middle.ratio.2 ≤ 2 * middle.ratio.2 * side

/-- The unit square about the point that a path goes through for `q` lies in the view box. -/
def Drawn (canvas : Dimensions) (q : Point) : Prop :=
  Spans canvas.width.toNat (centre q.1) ∧ Spans canvas.height.toNat (centre q.2)

theorem centre_natCast (x : Nat) : centre x = Binary.ofRatio false (2 * x + 1) 2 := by
  have hsign : ¬ (2 * (x : Int) + 1 < 0) := by omega
  have habs : (2 * (x : Int) + 1).natAbs = 2 * x + 1 := by omega
  rw [centre, decide_eq_false hsign, habs]

/-- The middle of a pixel spans the pixel. -/
theorem spans_centre {side x : Nat} (hx : x < 8388608) (hside : x < side) :
    Spans side (centre x) := by
  obtain ⟨unit, hunit, hratio⟩ := ratio_half hx
  have hend := Nat.mul_le_mul_left (4 * unit) (Nat.succ_le_of_lt hside)
  rw [Spans, centre_natCast, hratio]
  dsimp only
  constructor
  · have hpos := Nat.le_mul_of_pos_left unit (show 0 < 2 * x + 1 by omega)
    omega
  · calc 2 * ((2 * x + 1) * unit) + 2 * unit = 4 * unit * (x + 1) := by ring
      _ ≤ 4 * unit * side := hend
      _ = 2 * (2 * unit) * side := by ring

/-- A point on the canvas is drawn in the view box. -/
theorem drawn_of_holds {canvas : Dimensions} {q : Point} (h : canvas.Holds q)
    (hx : q.1 < 8388608) (hy : q.2 < 8388608) : Drawn canvas q := by
  obtain ⟨x, y⟩ := q
  obtain ⟨hx0, hwidth, hy0, hheight⟩ := h
  obtain ⟨x, rfl⟩ := Int.eq_ofNat_of_zero_le hx0
  obtain ⟨y, rfl⟩ := Int.eq_ofNat_of_zero_le hy0
  exact ⟨spans_centre (Int.ofNat_lt.mp hx) (Int.ofNat_lt.mp hwidth),
    spans_centre (Int.ofNat_lt.mp hy) (Int.ofNat_lt.mp hheight)⟩

end Svg

/-- **What a replay on a canvas records.**  All of it is on the canvas if and only if the canvas has
no empty side or the pen is never lowered.  On a canvas with an empty side nothing is travelled, and
every stroke is the origin alone.  The program has a picture, and what is recorded on a canvas
without an empty side is drawn in its view box, wherever the middle of a pixel is a number of single
precision. -/
theorem replayWithin_records (p : Program) (t : Trace) (o : Svg.Options)
    (h : replayWithin p.commands p.dimensions = .ok t) :
    ((∀ leg ∈ t.strokes ++ t.travel, ∀ q ∈ leg, p.dimensions.Holds q) ↔
        p.dimensions.Holds (0, 0) ∨ t.strokes = []) ∧
      (¬ p.dimensions.Holds (0, 0) →
        t.travel = [] ∧ ∀ stroke ∈ t.strokes, stroke = [(0, 0)]) ∧
      p.svg o = .ok (Svg.document p.dimensions t o).documentText ∧
      (p.dimensions.Holds (0, 0) → ∀ leg ∈ t.strokes ++ t.travel, ∀ q ∈ leg,
        q.1 < 8388608 → q.2 < 8388608 → Svg.Drawn p.dimensions q) := by
  refine ⟨forall_holds_iff h, fun horigin => eq_origin_of_not_holds horigin h,
    svg_of_replayWithin h o, fun horigin leg hleg q hq => ?_⟩
  exact Svg.drawn_of_holds (holds_of_replayWithin horigin h (List.mem_append.mp hleg) q hq)

theorem replayWithin_records_corner :
    replayWithin Program.corner.commands Program.corner.dimensions = .ok .corner ∧
      (∀ leg ∈ Trace.corner.strokes ++ Trace.corner.travel, ∀ q ∈ leg,
        Program.corner.dimensions.Holds q) ∧
      Svg.Drawn Program.corner.dimensions (2, 1) := by
  have hok : replayWithin Program.corner.commands Program.corner.dimensions = .ok .corner := by
    decide
  have horigin : Program.corner.dimensions.Holds (0, 0) := by decide
  obtain ⟨hholds, -, -, hdrawn⟩ := replayWithin_records _ _ ⟨none, none, true⟩ hok
  exact ⟨hok, hholds.mpr (.inl horigin),
    hdrawn horigin [(1, 0), (2, 0), (2, 1)] (by decide) (2, 1) (by decide) (by decide) (by decide)⟩

/-- Lowering the pen on a canvas without a pixel records a point that is not on it. -/
theorem replayWithin_no_pixels :
    replayWithin [.penDown] ⟨0, 0⟩ = .ok ⟨⟨(0, 0), .right, .down⟩, [[(0, 0)]], []⟩ ∧
      ¬ (⟨0, 0⟩ : Dimensions).Holds (0, 0) := by
  decide

end PenPlotter
