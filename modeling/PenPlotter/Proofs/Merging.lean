import Mathlib.Data.List.Perm.Subperm
import PenPlotter.Proofs.Dilation
import PenPlotter.Proofs.Islands

/-!
# A dilation merges islands

A mask *grows* into another that inks what it does and nothing that is not joined to that
(`Mask.Grows`).  Its islands are then merged and no others arise (`Mask.Merges`): what is joined
stays joined, and every island of the other mask draws a pixel that was inked before
(`Grows.merges`).

A dilation makes a mask grow although it lights the corners of a cell and islands do not touch at
corners: with a cell that is lit the whole rectangle on the way to it is lit, and a rectangle is
joined (`joined_of_between`).

**Main statement** (`islands_of_dilate`): every pass of a dilation merges islands.
-/

namespace PenPlotter

namespace Mask

variable {m m' : Mask} {p q : Pixel}

/-- The corners of an inked rectangle are joined. -/
theorem joined_of_between (h : ∀ r, Pixel.Between p q r → m.get r = true) : m.Joined p q := by
  fun_induction Pixel.way p q with
  | case1 => exact .start (h q (by simp [Pixel.Between]))
  | case2 p hne ih =>
      have hbetween := Pixel.between_step_headingTo hne
      have hadjacent : p.Adjacent (p.step (p.headingTo q)) :=
        Pixel.adjacent_iff_step?.mpr
          ⟨_, Pixel.step?_eq_some (Pixel.wayAlong_headingTo_pos hne)⟩
      have hfirst : m.Joined p (p.step (p.headingTo q)) :=
        .step (.start (h p (by simp [Pixel.Between]))) hadjacent (h _ hbetween)
      exact hfirst.trans (ih fun r hr => h r (hbetween.trans hr))

/-- The other mask inks what the mask does, and nothing that is not joined to that. -/
structure Grows (m m' : Mask) : Prop where
  keeps : ∀ p, m.get p = true → m'.get p = true
  root : ∀ p, m'.get p = true → ∃ q, m.get q = true ∧ m'.Joined p q

/-- The islands of the other mask are islands of the mask, merged. -/
structure Merges (m m' : Mask) : Prop where
  /-- An island goes into one island of the other mask. -/
  into : ∀ i ∈ m.islands, ∃! j, j ∈ m'.islands ∧ i.pixels ⊆ j.pixels
  /-- No island of the other mask is new. -/
  old : ∀ j ∈ m'.islands, ∃ i ∈ m.islands, i.pixels ⊆ j.pixels
  length : m'.islands.length ≤ m.islands.length

namespace Grows

/-- An island that draws an inked pixel holds the island that drew it before. -/
theorem subset (h : m.Grows m') {i j : Island} (hi : i ∈ m.islands) (hj : j ∈ m'.islands)
    (hpi : p ∈ i.pixels) (hpj : p ∈ j.pixels) : i.pixels ⊆ j.pixels := by
  intro q hq
  have hpq := ((component_of_mem_islands hi).joined p hpi q).mp hq
  exact ((component_of_mem_islands hj).joined p hpj q).mpr (hpq.mono h.keeps)

/-- Every island goes into one island. -/
theorem existsUnique (h : m.Grows m') {i : Island} (hi : i ∈ m.islands) :
    ∃! j, j ∈ m'.islands ∧ i.pixels ⊆ j.pixels := by
  obtain ⟨f, hf, -⟩ := (component_of_mem_islands hi).first
  have hfi := Island.mem_of_first? hf
  obtain ⟨j, hj, hfj⟩ := exists_island (h.keeps f ((component_of_mem_islands hi).inked hfi))
  refine ⟨j, ⟨hj, h.subset hi hj hfi hfj⟩, ?_⟩
  rintro k ⟨hk, hik⟩
  exact eq_of_mem_islands hk hj (hik hfi) hfj

/-- Every island holds an island of the mask that grew. -/
theorem exists_subset (h : m.Grows m') {j : Island} (hj : j ∈ m'.islands) :
    ∃ i ∈ m.islands, i.pixels ⊆ j.pixels := by
  obtain ⟨f, hf, -⟩ := (component_of_mem_islands hj).first
  have hfj := Island.mem_of_first? hf
  obtain ⟨q, hq, hjoined⟩ := h.root f ((component_of_mem_islands hj).inked hfj)
  obtain ⟨i, hi, hqi⟩ := exists_island hq
  have hqj := ((component_of_mem_islands hj).joined f hfj q).mpr hjoined
  exact ⟨i, hi, h.subset hi hj hqi hqj⟩

/-- **A mask that grows merges its islands.** -/
theorem merges (h : m.Grows m') : m.Merges m' where
  into _ hi := h.existsUnique hi
  old _ hj := h.exists_subset hj
  length := by
    choose! part hpart using fun j hj => h.exists_subset (j := j) hj
    -- Different islands are disjoint and hold different islands, since none is empty.
    have hnodup : (m'.islands.map part).Nodup := by
      refine m'.nodup_islands.map_on fun j hj k hk hjk => ?_
      obtain ⟨f, hf, -⟩ := (component_of_mem_islands (hpart j hj).1).first
      have hmem := Island.mem_of_first? hf
      exact eq_of_mem_islands hj hk ((hpart j hj).2 hmem) ((hpart k hk).2 (hjk ▸ hmem))
    have hsubset : m'.islands.map part ⊆ m.islands := by
      intro i hi
      obtain ⟨j, hj, rfl⟩ := List.mem_map.mp hi
      exact (hpart j hj).1
    have hlength := (List.subperm_of_subset hnodup hsubset).length_le
    rwa [List.length_map] at hlength

end Grows

/-! ### Dilations -/

variable {g : Image.Gray} {n : Nat}

/-- What the mask of a dilated image inks. -/
theorem get_of_ofGray_dilate (hg : g.IsBinary) (h : ofGray (g.dilate n) = .ok m) (p : Pixel) :
    m.get p = true ↔ g.Contains p ∧ g.LitWithin n p := by
  rw [get_of_ofGray h, Image.Gray.contains_dilate]
  refine and_congr_right fun hp => ?_
  rw [← Image.Gray.pixelLevel_dilate_ne_iff hp]
  rcases Image.Gray.pixelLevel_of_isBinary (Image.Gray.isBinary_dilate hg n) p with hlevel | hlevel
  · rw [hlevel]
    decide
  · rw [hlevel]
    decide

/-- **A dilation makes the mask of a binary image grow.** -/
theorem grows_dilate (hg : g.IsBinary) (h : ofGray g = .ok m)
    (h' : ofGray (g.dilate n) = .ok m') : m.Grows m' := by
  constructor
  · intro p hp
    obtain ⟨hcontains, hlit⟩ := (get_of_ofGray h p).mp hp
    refine (get_of_ofGray_dilate hg h' p).mpr ⟨hcontains, p, ?_, ?_⟩
    · exact Nat.le_trans (Pixel.chebyshev_eq_zero_iff.mpr rfl) (Nat.zero_le n)
    · rw [hlit]
      decide
  · intro p hp
    obtain ⟨hcontains, q, hpq, hlit⟩ := (get_of_ofGray_dilate hg h' p).mp hp
    have hq := Image.Gray.contains_of_pixelLevel_ne hlit
    have hlevel := (Image.Gray.pixelLevel_of_isBinary hg q).resolve_left hlit
    refine ⟨q, (get_of_ofGray h q).mpr ⟨hq, hlevel⟩, joined_of_between fun r hr => ?_⟩
    exact (get_of_ofGray_dilate hg h' r).mpr
      ⟨hr.inside hcontains hq, q, hr.chebyshev_le hpq, hlit⟩

/-- **A dilation merges islands, and neither splits nor makes any.**  However often a binary image
with cells is dilated, it makes a mask.  With more passes, every island goes into one island and
every island holds one that was there with fewer, so there are no more of them. -/
theorem islands_of_dilate (hg : g.IsBinary) (hwidth : g.width ≠ 0) (hheight : g.height ≠ 0) :
    ∃ mask : Nat → Mask, ofGray g = .ok (mask 0) ∧ (∀ n, ofGray (g.dilate n) = .ok (mask n)) ∧
      ∀ k n, k ≤ n → (mask k).Merges (mask n) := by
  have hexists : ∀ n, ∃ m, ofGray (g.dilate n) = .ok m := by
    intro n
    rw [exists_ofGray_eq_ok_iff (Image.Gray.isBinary_dilate hg n), (g.sides_dilate n).1,
      (g.sides_dilate n).2]
    exact ⟨hwidth, hheight⟩
  choose mask hmask using hexists
  refine ⟨mask, hmask 0, hmask, fun k n hkn => ?_⟩
  obtain ⟨d, rfl⟩ := Nat.exists_eq_add_of_le hkn
  have hmore : ofGray ((g.dilate k).dilate d) = .ok (mask (k + d)) := by
    rw [Image.Gray.dilate_dilate]
    exact hmask (k + d)
  exact (grows_dilate (Image.Gray.isBinary_dilate hg k) (hmask k) hmore).merges

/-- Two cells that touch at a corner, and a third that one pass joins to them. -/
theorem islands_of_dilate_corner :
    Image.Gray.IsBinary ⟨4, 2, #[255, 0, 0, 255, 0, 255, 0, 0], rfl⟩ ∧
      ∃ m m', ofGray ⟨4, 2, #[255, 0, 0, 255, 0, 255, 0, 0], rfl⟩ = .ok m ∧
        ofGray (Image.Gray.dilate ⟨4, 2, #[255, 0, 0, 255, 0, 255, 0, 0], rfl⟩ 1) = .ok m' ∧
        m.Merges m' := by
  have hbinary : Image.Gray.IsBinary ⟨4, 2, #[255, 0, 0, 255, 0, 255, 0, 0], rfl⟩ := by
    intro v hv
    have hlevels : v = 255 ∨ v = 0 ∨ v = 255 ∨ v = 0 ∨ v = 255 ∨ v = 0 := by simpa using hv
    tauto
  obtain ⟨mask, hzero, hmask, hmerges⟩ := islands_of_dilate hbinary (by decide) (by decide)
  exact ⟨hbinary, mask 0, mask 1, hzero, hmask 1, hmerges 0 1 (by decide)⟩

end Mask

end PenPlotter
