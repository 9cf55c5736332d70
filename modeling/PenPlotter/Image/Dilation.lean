import PenPlotter.Image.Gray

/-!
# Dilation

Dilating an image once lights every cell that has a cell other than dark within its 3×3
neighbourhood, itself included, and darkens all others; the neighbourhood ends at the edge of the
image.  `dilate` does so a number of times.  Not dilating at all leaves the image as it is,
levels between dark and light included.
-/

namespace PenPlotter.Image.Gray

/-- Whether a cell other than dark lies within the 3×3 neighbourhood of a place. -/
def touched (g : Gray) (x y : Nat) : Bool :=
  [y - 1, y, y + 1].any fun v => [x - 1, x, x + 1].any fun u => g.level u v ≠ 0

/-- Light every cell that touches a cell other than dark. -/
def dilateOnce (g : Gray) : Gray := ofLit g.width g.height g.touched

/-- Dilate a number of times. -/
def dilate (g : Gray) (iterations : Nat) : Gray := Nat.repeat dilateOnce iterations g

@[simp] theorem dilate_zero (g : Gray) : g.dilate 0 = g := rfl

theorem dilate_succ (g : Gray) (n : Nat) : g.dilate (n + 1) = (g.dilate n).dilateOnce := rfl

theorem sides_dilate (g : Gray) (n : Nat) :
    (g.dilate n).width = g.width ∧ (g.dilate n).height = g.height := by
  induction n with
  | zero => exact ⟨rfl, rfl⟩
  | succ n ih => exact ih

theorem isBinary_dilate {g : Gray} (h : g.IsBinary) (n : Nat) : (g.dilate n).IsBinary := by
  cases n with
  | zero => exact h
  | succ n => exact isBinary_ofLit _ _ _

end PenPlotter.Image.Gray
