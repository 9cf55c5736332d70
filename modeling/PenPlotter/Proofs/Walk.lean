import PenPlotter.Drawing

/-!
# The pixels of a walk

`p.way q` lists the pixels a walk from `p` to `q` steps on, the first step's first, by the same
local rule as `Draft.walkTo`.  `trail p qs` goes on from `p` through the pixels `qs` in their
order, and `route` is the whole way through a list of pixels, the first of which it starts on.

* `between_of_mem_way`: a walk stays in the rectangle its ends span.
* `position_walkTo`, `position_drawAll`: a walk ends at its goal, and drawing islands leaves the
  plotter at the exit of the last one.
* `extends_drawAll`: drawing only adds commands to a draft.
-/

namespace PenPlotter

namespace Pixel

/-- The pixels a walk to `goal` steps on. -/
def way (p goal : Pixel) : List Pixel :=
  if p = goal then [] else p.step (p.headingTo goal) :: (p.step (p.headingTo goal)).way goal
termination_by p.manhattan goal
decreasing_by
  have := manhattan_step_headingTo (by assumption : ¬ p = goal)
  omega

@[simp] theorem way_self (p : Pixel) : p.way p = [] := by
  rw [way, if_pos rfl]

theorem way_of_ne {p goal : Pixel} (h : p ≠ goal) :
    p.way goal = p.step (p.headingTo goal) :: (p.step (p.headingTo goal)).way goal := by
  rw [way, if_neg h]

theorem way_eq_nil_iff {p goal : Pixel} : p.way goal = [] ↔ p = goal := by
  constructor
  · intro h
    by_cases hne : p = goal
    · exact hne
    · rw [way_of_ne hne] at h
      cases h
  · rintro rfl
    exact way_self p

/-- The pixels of the walk from `p` through given pixels, less `p`. -/
def trail (p : Pixel) : List Pixel → List Pixel
  | [] => []
  | q :: qs => p.way q ++ trail q qs

/-- The walk through given pixels, which starts on the first of them. -/
def route : List Pixel → List Pixel
  | [] => []
  | p :: ps => p :: trail p ps

/-! ### The rectangle of a walk -/

/-- The pixel `r` lies in the rectangle that `p` and `q` span. -/
def Between (p q r : Pixel) : Prop :=
  (min p.x.toNat q.x.toNat ≤ r.x.toNat ∧ r.x.toNat ≤ max p.x.toNat q.x.toNat) ∧
    min p.y.toNat q.y.toNat ≤ r.y.toNat ∧ r.y.toNat ≤ max p.y.toNat q.y.toNat

theorem Between.trans {p q r s : Pixel} (hr : Between p q r) (hs : Between r q s) :
    Between p q s := by
  simp only [Between] at hr hs ⊢
  omega

/-- The rectangle that two pixels of a canvas span is part of the canvas. -/
theorem Between.inside {p q r : Pixel} {width height : UInt32} (hr : Between p q r)
    (hp : p.x < width ∧ p.y < height) (hq : q.x < width ∧ q.y < height) :
    r.x < width ∧ r.y < height := by
  simp only [UInt32.lt_iff_toNat_lt, Between] at hp hq hr ⊢
  omega

theorem between_step_headingTo {p q : Pixel} (h : p ≠ q) :
    Between p q (p.step (p.headingTo q)) := by
  have hway := wayAlong_headingTo_pos h
  have hs := point_step hway
  simp only [point, Prod.mk.injEq] at hs
  cases hh : p.headingTo q <;> rw [hh] at hway hs <;>
    simp only [Heading.wayAlong, Heading.unitStep, dx, dy, Between] at hway hs ⊢ <;> omega

/-- A walk stays in the rectangle its ends span. -/
theorem between_of_mem_way {p q r : Pixel} (h : r ∈ p.way q) : Between p q r := by
  fun_induction way p q with
  | case1 => cases h
  | case2 p hne ih =>
      have hstep := between_step_headingTo hne
      rcases List.mem_cons.mp h with rfl | h
      · exact hstep
      · exact hstep.trans (ih h)

/-- What holds of the pixels of rectangles between given pixels holds all along the walk. -/
theorem forall_mem_trail {P : Pixel → Prop} :
    ∀ {p : Pixel} {qs : List Pixel},
      (∀ a ∈ p :: qs, ∀ b ∈ p :: qs, ∀ r, Between a b r → P r) → ∀ r ∈ trail p qs, P r
  | _, [], _, r, hr => absurd hr List.not_mem_nil
  | p, q :: qs, h, r, hr => by
      rcases List.mem_append.mp hr with hr | hr
      · exact h p (by simp) q (by simp) r (between_of_mem_way hr)
      · refine forall_mem_trail (fun a ha b hb => ?_) r hr
        exact h a (List.mem_cons_of_mem p ha) b (List.mem_cons_of_mem p hb)

/-- The walk passes the pixels it is led through. -/
theorem mem_way_goal {p q : Pixel} (h : p ≠ q) : q ∈ p.way q := by
  fun_induction way p q with
  | case1 => exact absurd rfl h
  | case2 p hne ih =>
      by_cases hend : p.step (p.headingTo q) = q
      · exact List.mem_cons.mpr (.inl hend.symm)
      · exact List.mem_cons_of_mem _ (ih hend)

theorem mem_trail {p : Pixel} {qs : List Pixel} {q : Pixel} (h : q ∈ qs) :
    q ∈ p :: trail p qs := by
  induction qs generalizing p with
  | nil => cases h
  | cons a qs ih =>
      have hpass : a ∈ p :: p.way a := by
        by_cases hpa : p = a
        · simp [hpa]
        · exact List.mem_cons_of_mem p (mem_way_goal hpa)
      rw [trail, ← List.cons_append, List.mem_append]
      rcases List.mem_cons.mp h with rfl | h
      · exact .inl hpass
      · rcases List.mem_cons.mp (ih (p := a) h) with rfl | hq
        · exact .inl hpass
        · exact .inr hq

theorem mem_route {ps : List Pixel} {q : Pixel} (h : q ∈ ps) : q ∈ route ps := by
  cases ps with
  | nil => cases h
  | cons p ps =>
      rcases List.mem_cons.mp h with rfl | h
      · exact List.mem_cons_self
      · exact mem_trail h

end Pixel

namespace Draft

/-! ### Where drawing leaves the plotter -/

theorem position_walkTo (d : Draft) (goal : Pixel) : (d.walkTo goal).plotter.position = goal := by
  fun_induction walkTo d goal with
  | case1 d h => exact h
  | case2 d h ih => exact ih

theorem pen_walkTo (d : Draft) (goal : Pixel) : (d.walkTo goal).plotter.pen = d.plotter.pen := by
  fun_induction walkTo d goal with
  | case1 d h => rfl
  | case2 d h ih => exact ih

theorem position_foldl_walkTo (d : Draft) (goals : List Pixel) :
    (goals.foldl walkTo d).plotter.position = goals.getLast?.getD d.plotter.position := by
  induction goals generalizing d with
  | nil => rfl
  | cons goal goals ih =>
      rw [List.foldl_cons, ih, position_walkTo, List.getLast?_cons, Option.getD_some]

theorem pen_foldl_walkTo (d : Draft) (goals : List Pixel) :
    (goals.foldl walkTo d).plotter.pen = d.plotter.pen := by
  induction goals generalizing d with
  | nil => rfl
  | cons goal goals ih => rw [List.foldl_cons, ih, pen_walkTo]

/-- Drawing an island leaves the plotter at its exit. -/
theorem position_drawIsland (d : Draft) (i : Island) :
    (d.drawIsland i).plotter.position = Pool.after d.plotter.position i := by
  rw [drawIsland, Pool.after, Island.last?]
  split
  case h_1 hnil => rw [hnil]; rfl
  case h_2 entry rest hcons =>
    have hentry : (d.lift.walkTo entry).lower.plotter.position = entry := position_walkTo _ _
    rw [position_foldl_walkTo, hentry, hcons, List.getLast?_cons, Option.getD_some]

theorem pen_drawIsland {d : Draft} {i : Island} (h : i.isEmpty = false) :
    (d.drawIsland i).plotter.pen = .down := by
  rw [drawIsland]
  split
  case h_1 hnil => rw [Island.isEmpty, hnil] at h; cases h
  case h_2 entry rest _ => exact pen_foldl_walkTo _ _

theorem position_drawAll (d : Draft) (islands : List Island) :
    (d.drawAll islands).plotter.position = islands.foldl Pool.after d.plotter.position := by
  induction islands generalizing d with
  | nil => rfl
  | cons i islands ih =>
      rw [List.foldl_cons, ← position_drawIsland]
      exact ih (d.drawIsland i)

theorem drawAll_append (d : Draft) (is js : List Island) :
    d.drawAll (is ++ js) = (d.drawAll is).drawAll js :=
  List.foldl_append

/-! ### Drawing adds commands -/

/-- The commands of `d` begin those of `e`. -/
def Extends (d e : Draft) : Prop := d.commands.toList <+: e.commands.toList

theorem Extends.trans {d e f : Draft} (hde : d.Extends e) (hef : e.Extends f) : d.Extends f :=
  List.IsPrefix.trans hde hef

theorem extends_lift (d : Draft) : d.Extends d.lift := by simp [Extends, lift]

theorem extends_lower (d : Draft) : d.Extends d.lower := by simp [Extends, lower]

theorem extends_stepToward (d : Draft) (goal : Pixel) : d.Extends (d.stepToward goal) := by
  simp only [Extends, stepToward, advance, face]
  split <;> simp

theorem extends_walkTo (d : Draft) (goal : Pixel) : d.Extends (d.walkTo goal) := by
  fun_induction walkTo d goal with
  | case1 d h => exact List.prefix_rfl
  | case2 d h ih => exact (d.extends_stepToward goal).trans ih

theorem extends_foldl {α : Type} {draw : Draft → α → Draft}
    (hdraw : ∀ (d : Draft) a, d.Extends (draw d a)) (d : Draft) (as : List α) :
    d.Extends (as.foldl draw d) := by
  induction as generalizing d with
  | nil => exact List.prefix_rfl
  | cons a as ih => exact (hdraw d a).trans (ih _)

theorem extends_drawIsland (d : Draft) (i : Island) : d.Extends (d.drawIsland i) := by
  rw [drawIsland]
  split
  · exact List.prefix_rfl
  · exact d.extends_lift.trans <| (extends_walkTo _ _).trans <|
      (extends_lower _).trans (extends_foldl extends_walkTo _ _)

theorem extends_drawAll (d : Draft) (islands : List Island) : d.Extends (d.drawAll islands) :=
  extends_foldl extends_drawIsland d islands

end Draft

end PenPlotter
