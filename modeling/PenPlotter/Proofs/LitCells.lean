import PenPlotter.Image.Filter
import PenPlotter.Proofs.RowMajor

/-!
# How many cells are lit

The cells of an image are its levels, row by row (`map_level_range`), so an image that is lit
wherever another of the same sides is has no fewer lit cells (`litCount_le`).  Hence

* `litCount_le_dilate`: a dilation puts out no cell;
* `litCount_invert`: a binary image and its inversion light every cell once;
* `inkCount_of_ofGray`: a mask made from an image inks as many cells as the image lights.
-/

namespace PenPlotter

namespace Image.Gray

theorem level_place {g : Gray} {i : Nat} (h : i < g.cells.size) :
    g.level (i % g.width.toNat) (i / g.width.toNat) = g.cells[i] := by
  have hw : 0 < g.width.toNat := by
    rw [g.size_cells] at h
    exact Nat.pos_of_mul_pos_right (Nat.zero_lt_of_lt h)
  have hplace : i / g.width.toNat * g.width.toNat + i % g.width.toNat = i := by
    rw [Nat.mul_comm]
    exact Nat.div_add_mod i g.width.toNat
  rw [level, Grid.at?, if_pos (Nat.mod_lt i hw), hplace, Array.getElem?_eq_getElem h,
    Option.getD_some]

/-- The cells of an image are its levels, row by row. -/
theorem map_level_range (g : Gray) :
    ((List.range g.cells.size).map fun i => g.level (i % g.width.toNat) (i / g.width.toNat)) =
      g.cells.toList := by
  refine List.ext_getElem (by simp) fun i hi _ => ?_
  rw [List.length_map, List.length_range] at hi
  rw [List.getElem_map, List.getElem_range, level_place hi, Array.getElem_toList]

/-- An image that is lit wherever another is has no fewer lit cells. -/
theorem litCount_le {g h : Gray} (hwidth : h.width = g.width) (hheight : h.height = g.height)
    (hlit : ∀ x y, x < g.width.toNat → y < g.height.toNat → g.level x y = 255 →
      h.level x y = 255) : g.litCount ≤ h.litCount := by
  have hsize : h.cells.size = g.cells.size := by
    rw [g.size_cells, h.size_cells, hwidth, hheight]
  rw [litCount, litCount, ← Array.count_toList, ← Array.count_toList, ← map_level_range,
    ← map_level_range, hsize, hwidth, List.count_eq_countP, List.count_eq_countP,
    List.countP_map, List.countP_map]
  refine List.countP_mono_left fun i hi hg => ?_
  have hi' : i < g.width.toNat * g.height.toNat := by
    rw [← g.size_cells]
    exact List.mem_range.mp hi
  have hw : 0 < g.width.toNat := Nat.pos_of_mul_pos_right (Nat.zero_lt_of_lt hi')
  refine beq_iff_eq.mpr (hlit _ _ (Nat.mod_lt i hw) ?_ (beq_iff_eq.mp hg))
  rwa [Nat.div_lt_iff_lt_mul hw, Nat.mul_comm]

/-! ### Dilation -/

theorem level_dilateOnce {g : Gray} {x y : Nat} (hx : x < g.width.toNat)
    (hy : y < g.height.toNat) : g.dilateOnce.level x y = litLevel (g.touched x y) := by
  rw [level, dilateOnce, ofLit, Grid.at?_tabulate hx hy, Option.getD_some]

/-- A cell touches itself. -/
theorem touched_of_level_ne {g : Gray} {x y : Nat} (h : g.level x y ≠ 0) :
    g.touched x y = true := by
  simp [touched, h]

theorem litCount_le_dilateOnce (g : Gray) : g.litCount ≤ g.dilateOnce.litCount := by
  refine litCount_le rfl rfl fun x y hx hy hlit => ?_
  have hne : g.level x y ≠ 0 := by
    rw [hlit]
    decide
  rw [level_dilateOnce hx hy, touched_of_level_ne hne]
  rfl

/-- **A dilation puts out no cell.** -/
theorem litCount_le_dilate (g : Gray) (n : Nat) : g.litCount ≤ (g.dilate n).litCount := by
  induction n with
  | zero => exact Nat.le_refl _
  | succ n ih => exact ih.trans (litCount_le_dilateOnce _)

/-! ### Inversion -/

/-- **A binary image and its inversion light every cell once.** -/
theorem litCount_invert {g : Gray} (h : g.IsBinary) :
    g.invert.litCount + g.litCount = g.width.toNat * g.height.toNat := by
  have hcells : ∀ levels : List UInt8, (∀ v ∈ levels, v = 0 ∨ v = 255) →
      (levels.map fun v => 255 - v).count 255 + levels.count 255 = levels.length := by
    intro levels hlevels
    induction levels with
    | nil => rfl
    | cons v levels ih =>
        obtain ⟨hv, hlevels⟩ := List.forall_mem_cons.mp hlevels
        have hrest := ih hlevels
        rcases hv with rfl | rfl
        · simp
          omega
        · simp
          omega
  have hall := hcells g.cells.toList fun v hv => h v (Array.mem_toList_iff.mp hv)
  rw [Array.length_toList, g.size_cells] at hall
  rw [← hall, litCount, litCount, invert, Grid.map, ← Array.count_toList, ← Array.count_toList,
    Array.toList_map]

end Image.Gray

namespace Mask

/-- A mask made from cells has these cells on a canvas of these sides. -/
theorem of_ofCells {width height : UInt32} {cells : Array Bool} {m : Mask}
    (h : ofCells width height cells = .ok m) :
    m.width = width ∧ m.height = height ∧ m.cells = cells := by
  rw [ofCells] at h
  split at h
  · cases h
  split at h
  · cases h
  split at h
  · cases h
    exact ⟨rfl, rfl, rfl⟩
  · cases h

/-- **A mask made from an image inks as many cells as the image lights**, on a canvas of the same
sides. -/
theorem inkCount_of_ofGray {g : Image.Gray} {m : Mask} (h : ofGray g = .ok m) :
    m.inkCount = g.litCount ∧ m.width = g.width ∧ m.height = g.height := by
  rw [ofGray] at h
  split at h
  · cases h
  · obtain ⟨hwidth, hheight, hcells⟩ := of_ofCells h
    refine ⟨?_, hwidth, hheight⟩
    rw [inkCount, hcells, Image.Gray.litCount, ← Array.count_toList, ← Array.count_toList,
      Array.toList_map, List.count_eq_countP, List.count_eq_countP, List.countP_map]
    refine List.countP_congr fun v _ => ?_
    simp

/-- A binary image is read as cells that are lit or not. -/
theorem ofGray_of_isBinary {g : Image.Gray} (h : g.IsBinary) :
    ofGray g = ofCells g.width g.height (g.cells.map (· == 255)) := by
  have hnone : g.cells.findIdx? (fun v => v ≠ 0 ∧ v ≠ 255) = none := by
    rw [Array.findIdx?_eq_none_iff]
    intro v hv
    rcases h v hv with rfl | rfl <;> simp
  rw [ofGray, hnone]

/-- A binary image makes a mask if and only if it has cells. -/
theorem exists_ofGray_eq_ok_iff {g : Image.Gray} (h : g.IsBinary) :
    (∃ m, ofGray g = .ok m) ↔ g.width ≠ 0 ∧ g.height ≠ 0 := by
  constructor
  · rintro ⟨m, hm⟩
    obtain ⟨-, hwidth, hheight⟩ := inkCount_of_ofGray hm
    rw [← hwidth, ← hheight]
    exact ⟨m.width_ne, m.height_ne⟩
  · rintro ⟨hw, hh⟩
    have hsize : (g.cells.map (· == 255)).size = g.width.toNat * g.height.toNat := by
      rw [Array.size_map, g.size_cells]
    rw [ofGray_of_isBinary h]
    simp only [ofCells, hw, hh, hsize, dite_false, dite_true]
    exact ⟨_, rfl⟩

end Mask

end PenPlotter
