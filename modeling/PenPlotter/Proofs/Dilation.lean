import PenPlotter.Proofs.MaskCells
import PenPlotter.Proofs.Walk

/-!
# How far a dilation reaches

`g.LitWithin n p` holds when the image has a cell other than dark within Chebyshev distance `n` of
the pixel `p`.  One pass of a dilation lights the pixels for which this holds at distance one
(`touched_iff`).  On the way from a pixel to a cell at distance `n + 1` there is a pixel next to the
first and within distance `n` of the cell (`Pixel.exists_next`); it lies in the rectangle that the
two span and so within the image, whatever its sides are.  Hence `n` passes reach exactly as far as
`n` cells (`pixelLevel_dilate_ne_iff`).

**Main statement** (`dilate_squares`): `n` passes are one pass with a square of `2 * n + 1` cells.
-/

namespace PenPlotter

namespace Pixel

theorem toNat_chebyshev_le_iff {p q : Pixel} {n : Nat} :
    (p.chebyshev q).toNat ≤ n ↔ (p.dx q).natAbs ≤ n ∧ (p.dy q).natAbs ≤ n := by
  rw [toNat_chebyshev, toNat_absDiff, toNat_absDiff, dx, dy]
  omega

theorem chebyshev_eq_zero_iff {p q : Pixel} : (p.chebyshev q).toNat ≤ 0 ↔ q = p := by
  rw [toNat_chebyshev_le_iff]
  constructor
  · rintro ⟨hx, hy⟩
    exact (eq_of_dx_dy (by omega) (by omega)).symm
  · rintro rfl
    simp [dx, dy]

/-- The triangle inequality. -/
theorem chebyshev_triangle {p q r : Pixel} {m n : Nat} (hpq : (p.chebyshev q).toNat ≤ m)
    (hqr : (q.chebyshev r).toNat ≤ n) : (p.chebyshev r).toNat ≤ m + n := by
  rw [toNat_chebyshev_le_iff] at hpq hqr ⊢
  simp only [dx, dy] at hpq hqr ⊢
  omega

/-- A pixel of the rectangle that two pixels span is no farther from one than the other is. -/
theorem Between.chebyshev_le {p q r : Pixel} (h : Between p q r) {n : Nat}
    (hpq : (p.chebyshev q).toNat ≤ n) : (r.chebyshev q).toNat ≤ n := by
  rw [toNat_chebyshev_le_iff] at hpq ⊢
  simp only [dx, dy, Between] at h hpq ⊢
  omega

/-- Between two coordinates there is one next to the first and nearer to the second, unless they are
equal. -/
theorem exists_next_coordinate {n : Nat} (a b : UInt32)
    (h : ((b.toNat : Int) - a.toNat).natAbs ≤ n + 1) :
    ∃ c : UInt32, (min a.toNat b.toNat ≤ c.toNat ∧ c.toNat ≤ max a.toNat b.toNat) ∧
      ((c.toNat : Int) - a.toNat).natAbs ≤ 1 ∧ ((b.toNat : Int) - c.toNat).natAbs ≤ n := by
  have ha := a.toNat_lt_size
  have hb := b.toNat_lt_size
  rcases Nat.lt_trichotomy a.toNat b.toNat with hab | hab | hab
  · refine ⟨a + 1, ?_⟩
    rw [toNat_add_one hab hb]
    omega
  · exact ⟨a, by omega⟩
  · refine ⟨a - 1, ?_⟩
    rw [toNat_sub_one hab]
    omega

/-- On the way to a pixel at distance `n + 1` there is one next to the start and within distance
`n` of the goal. -/
theorem exists_next {p q : Pixel} {n : Nat} (h : (p.chebyshev q).toNat ≤ n + 1) :
    ∃ r, Between p q r ∧ (p.chebyshev r).toNat ≤ 1 ∧ (r.chebyshev q).toNat ≤ n := by
  obtain ⟨hx, hy⟩ := toNat_chebyshev_le_iff.mp h
  obtain ⟨x, hx, hpx, hxq⟩ := exists_next_coordinate p.x q.x hx
  obtain ⟨y, hy, hpy, hyq⟩ := exists_next_coordinate p.y q.y hy
  exact ⟨⟨x, y⟩, ⟨hx, hy⟩, toNat_chebyshev_le_iff.mpr ⟨hpx, hpy⟩,
    toNat_chebyshev_le_iff.mpr ⟨hxq, hyq⟩⟩

end Pixel

namespace Image.Gray

variable {g : Gray} {p q r : Pixel}

/-- A cell other than dark lies within a distance of the pixel. -/
def LitWithin (g : Gray) (n : Nat) (p : Pixel) : Prop :=
  ∃ q, (p.chebyshev q).toNat ≤ n ∧ g.pixelLevel q ≠ 0

theorem lt_of_level_ne {x y : Nat} (h : g.level x y ≠ 0) :
    x < g.width.toNat ∧ y < g.height.toNat := by
  rw [level, Grid.at?] at h
  split at h
  case isTrue hx =>
    refine ⟨hx, ?_⟩
    by_contra hy
    have hrows : g.width.toNat * g.height.toNat ≤ y * g.width.toNat := by
      rw [Nat.mul_comm]
      exact Nat.mul_le_mul_right _ (Nat.le_of_not_lt hy)
    rw [Array.getElem?_eq_none (by rw [g.size_cells]; omega)] at h
    exact h rfl
  case isFalse => exact absurd rfl h

/-- Beyond the image every pixel is dark. -/
theorem contains_of_pixelLevel_ne (h : g.pixelLevel p ≠ 0) : g.Contains p :=
  ⟨UInt32.lt_iff_toNat_lt.mpr (lt_of_level_ne h).1, UInt32.lt_iff_toNat_lt.mpr (lt_of_level_ne h).2⟩

theorem contains_dilate {n : Nat} : (g.dilate n).Contains p ↔ g.Contains p := by
  rw [Grid.Contains, Grid.Contains, (g.sides_dilate n).1, (g.sides_dilate n).2]

theorem at?_pixel (h : g.Contains p) :
    g.at? p.x.toNat p.y.toNat = some (g.pixelLevel p) := by
  have hx := UInt32.lt_iff_toNat_lt.mp h.1
  have hy := UInt32.lt_iff_toNat_lt.mp h.2
  have hi : p.y.toNat * g.width.toNat + p.x.toNat < g.cells.size := by
    rw [g.size_cells]
    exact Grid.row_lt hx hy
  rw [pixelLevel, level, Grid.at?, if_pos hx, Array.getElem?_eq_getElem hi, Option.getD_some]

theorem pixelLevel_of_isBinary (h : g.IsBinary) (p : Pixel) :
    g.pixelLevel p = 0 ∨ g.pixelLevel p = 255 := by
  by_cases hp : g.Contains p
  · have hcell := at?_pixel hp
    rw [Grid.at?, if_pos (UInt32.lt_iff_toNat_lt.mp hp.1)] at hcell
    exact h _ (Array.mem_of_getElem? hcell)
  · exact .inl (by_contra fun hlit => hp (contains_of_pixelLevel_ne hlit))

/-! ### One pass -/

theorem mem_neighbourhood {i j : Nat} : j ∈ [i - 1, i, i + 1] ↔ ((j : Int) - i).natAbs ≤ 1 := by
  simp only [List.mem_cons, List.not_mem_nil, or_false]
  omega

/-- A pass lights the pixels with a cell other than dark next to them. -/
theorem touched_iff : g.touched p.x.toNat p.y.toNat = true ↔ g.LitWithin 1 p := by
  simp only [touched, List.any_eq_true, decide_eq_true_iff, mem_neighbourhood, LitWithin,
    Pixel.toNat_chebyshev_le_iff, Pixel.dx, Pixel.dy, pixelLevel]
  constructor
  · rintro ⟨v, hv, u, hu, hlit⟩
    obtain ⟨hwidth, hheight⟩ := lt_of_level_ne hlit
    have hu' := UInt32.toNat_ofNat_of_lt' (hwidth.trans g.width.toNat_lt_size)
    have hv' := UInt32.toNat_ofNat_of_lt' (hheight.trans g.height.toNat_lt_size)
    refine ⟨⟨UInt32.ofNat u, UInt32.ofNat v⟩, ?_⟩
    rw [hu', hv']
    exact ⟨⟨hu, hv⟩, hlit⟩
  · rintro ⟨q, ⟨hx, hy⟩, hlit⟩
    exact ⟨q.y.toNat, hy, q.x.toNat, hx, hlit⟩

theorem pixelLevel_dilateOnce (h : g.Contains p) :
    g.dilateOnce.pixelLevel p = litLevel (g.touched p.x.toNat p.y.toNat) :=
  level_dilateOnce (UInt32.lt_iff_toNat_lt.mp h.1) (UInt32.lt_iff_toNat_lt.mp h.2)

theorem litLevel_ne_zero_iff {lit : Bool} : litLevel lit ≠ 0 ↔ lit = true := by
  cases lit <;> decide

/-! ### Many passes -/

/-- **Passes reach as far as there are passes.** -/
theorem pixelLevel_dilate_ne_iff {n : Nat} (h : g.Contains p) :
    (g.dilate n).pixelLevel p ≠ 0 ↔ g.LitWithin n p := by
  induction n generalizing p with
  | zero => simp only [LitWithin, Pixel.chebyshev_eq_zero_iff, exists_eq_left, dilate_zero]
  | succ n ih =>
      rw [dilate_succ, pixelLevel_dilateOnce (contains_dilate.mpr h), litLevel_ne_zero_iff,
        touched_iff]
      constructor
      · rintro ⟨r, hpr, hlit⟩
        obtain ⟨q, hrq, hq⟩ := (ih (contains_dilate.mp (contains_of_pixelLevel_ne hlit))).mp hlit
        exact ⟨q, Nat.add_comm 1 n ▸ Pixel.chebyshev_triangle hpr hrq, hq⟩
      · rintro ⟨q, hpq, hq⟩
        obtain ⟨r, hbetween, hpr, hrq⟩ := Pixel.exists_next hpq
        have hr : g.Contains r := hbetween.inside h (contains_of_pixelLevel_ne hq)
        exact ⟨r, hpr, (ih hr).mpr ⟨q, hrq, hq⟩⟩

theorem dilate_dilate (g : Gray) (m n : Nat) : (g.dilate m).dilate n = g.dilate (m + n) := by
  induction n with
  | zero => rfl
  | succ n ih => rw [dilate_succ, ih, ← Nat.add_assoc, dilate_succ]

/-- **Passes of a dilation are one pass with a larger square.**  An image that is dilated keeps its
sides.  After one pass at least, the cell of a pixel is 255 if a cell other than dark lies within as
many cells of the pixel as there were passes, and 0 otherwise.  No pass leaves the image as it is,
and passes behind passes add up. -/
theorem dilate_squares (g : Gray) :
    (∀ n, (g.dilate n).width = g.width ∧ (g.dilate n).height = g.height) ∧
      (∀ n p, 1 ≤ n → g.Contains p →
        (g.LitWithin n p → (g.dilate n).at? p.x.toNat p.y.toNat = some 255) ∧
          (¬ g.LitWithin n p → (g.dilate n).at? p.x.toNat p.y.toNat = some 0)) ∧
      g.dilate 0 = g ∧
      ∀ m n, (g.dilate m).dilate n = g.dilate (m + n) := by
  refine ⟨g.sides_dilate, fun n p hn hp => ?_, rfl, g.dilate_dilate⟩
  obtain ⟨n, rfl⟩ := Nat.exists_eq_add_of_le' hn
  rw [at?_pixel (contains_dilate.mpr hp), ← pixelLevel_dilate_ne_iff hp]
  rcases pixelLevel_of_isBinary (isBinary_ofLit _ _ (g.dilate n).touched) p with h | h
  · exact ⟨fun hlit => absurd h hlit, fun _ => congrArg some h⟩
  · exact ⟨fun _ => congrArg some h, fun hdark => absurd (h ▸ by decide) hdark⟩

/-- A column of four cells, the third of which is not dark, and what two passes make of the
first. -/
theorem dilate_squares_column :
    Grid.Contains (⟨1, 4, #[0, 0, 7, 0], rfl⟩ : Gray) ⟨0, 0⟩ ∧
      LitWithin ⟨1, 4, #[0, 0, 7, 0], rfl⟩ 2 ⟨0, 0⟩ ∧
      (dilate ⟨1, 4, #[0, 0, 7, 0], rfl⟩ 2).at? 0 0 = some 255 := by
  obtain ⟨-, hcells, -⟩ := dilate_squares ⟨1, 4, #[0, 0, 7, 0], rfl⟩
  have hcontains : Grid.Contains (⟨1, 4, #[0, 0, 7, 0], rfl⟩ : Gray) ⟨0, 0⟩ :=
    ⟨by decide, by decide⟩
  have hlit : LitWithin ⟨1, 4, #[0, 0, 7, 0], rfl⟩ 2 ⟨0, 0⟩ := ⟨⟨0, 2⟩, by decide, by decide⟩
  exact ⟨hcontains, hlit, (hcells 2 ⟨0, 0⟩ (by decide) hcontains).1 hlit⟩

end Image.Gray

end PenPlotter
