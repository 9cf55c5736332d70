import Mathlib.Data.List.Sort
import PenPlotter.Mask

/-!
# The order of a scan row by row

`Pixel.Before p q` holds when a scan row by row meets `p` before `q`: in a row above, or in the
same row further left.  It is a strict order on pixels.

Main statements: `Mask.pixels` lists the pixels of the canvas (`mem_pixels`) in this order
(`pixels_pairwise`), hence each of them once (`pixels_nodup`).  The cells are stored in this order
too (`map_get_pixels`), so the inked pixels are as many as the inked cells (`length_inked`).  Which
pixels are inked decides how they are listed, whatever the sides of the mask are (`inked_congr`).
-/

namespace PenPlotter

namespace Pixel

/-- A scan row by row meets `p` before `q`. -/
def Before (p q : Pixel) : Prop := p.y < q.y ∨ p.y = q.y ∧ p.x < q.x

instance (p q : Pixel) : Decidable (p.Before q) := inferInstanceAs (Decidable (_ ∨ _))

theorem before_irrefl (p : Pixel) : ¬ p.Before p := by
  rintro (h | ⟨-, h⟩)
  · exact UInt32.lt_irrefl _ h
  · exact UInt32.lt_irrefl _ h

theorem Before.trans {p q r : Pixel} (hpq : p.Before q) (hqr : q.Before r) : p.Before r := by
  simp only [Before, UInt32.lt_iff_toNat_lt, ← UInt32.toNat_inj] at hpq hqr ⊢
  omega

instance : Std.Irrefl Pixel.Before := ⟨before_irrefl⟩

instance : Std.Antisymm Pixel.Before :=
  ⟨fun p _ hpq hqp => absurd (hpq.trans hqp) p.before_irrefl⟩

end Pixel

/-- Words made of small numbers are ordered as the numbers are. -/
theorem ofNat_lt_ofNat {i j n : Nat} (hij : i < j) (hj : j < n) (hn : n < UInt32.size) :
    UInt32.ofNat i < UInt32.ofNat j := by
  rw [UInt32.lt_iff_toNat_lt, UInt32.toNat_ofNat_of_lt' (by omega),
    UInt32.toNat_ofNat_of_lt' (by omega)]
  exact hij

namespace Mask

theorem mem_pixels {m : Mask} {p : Pixel} : p ∈ m.pixels ↔ m.Contains p := by
  obtain ⟨x, y⟩ := p
  have hw := m.width.toNat_lt_size
  have hh := m.height.toNat_lt_size
  simp only [pixels, List.mem_flatMap, List.mem_map, List.mem_range, Contains, Pixel.mk.injEq,
    UInt32.lt_iff_toNat_lt]
  constructor
  · rintro ⟨j, hj, i, hi, rfl, rfl⟩
    rw [UInt32.toNat_ofNat_of_lt' (by omega), UInt32.toNat_ofNat_of_lt' (by omega)]
    exact ⟨hi, hj⟩
  · rintro ⟨hx, hy⟩
    exact ⟨y.toNat, hy, x.toNat, hx, UInt32.ofNat_toNat, UInt32.ofNat_toNat⟩

/-- The pixels of the canvas are listed in the order of a scan row by row. -/
theorem pixels_pairwise (m : Mask) : m.pixels.Pairwise Pixel.Before := by
  have hw := m.width.toNat_lt_size
  have hh := m.height.toNat_lt_size
  rw [pixels, List.pairwise_flatMap]
  constructor
  · intro j _
    rw [List.pairwise_map]
    refine List.pairwise_lt_range.imp_of_mem fun _ hb hab => ?_
    exact .inr ⟨rfl, ofNat_lt_ofNat hab (List.mem_range.mp hb) hw⟩
  · refine List.pairwise_lt_range.imp_of_mem fun _ hb hab => ?_
    intro p hp q hq
    obtain ⟨i, -, rfl⟩ := List.mem_map.mp hp
    obtain ⟨k, -, rfl⟩ := List.mem_map.mp hq
    exact .inl (ofNat_lt_ofNat hab (List.mem_range.mp hb) hh)

theorem pixels_nodup (m : Mask) : m.pixels.Nodup := by
  refine m.pixels_pairwise.imp ?_
  rintro p _ h rfl
  exact p.before_irrefl h

theorem contains_origin (m : Mask) : m.Contains Pixel.origin := by
  have hw : m.width.toNat ≠ 0 := fun h => m.width_ne (UInt32.toNat_inj.mp h)
  have hh : m.height.toNat ≠ 0 := fun h => m.height_ne (UInt32.toNat_inj.mp h)
  simp only [Contains, Pixel.origin, UInt32.lt_iff_toNat_lt, UInt32.toNat_zero]
  omega

/-! ### Inked pixels and cells -/

theorem mem_inked {m : Mask} {p : Pixel} : p ∈ m.inked ↔ m.get p = true := by
  rw [inked, List.mem_filter, mem_pixels]
  exact and_iff_right_of_imp contains_of_get

theorem inked_pairwise (m : Mask) : m.inked.Pairwise Pixel.Before :=
  m.pixels_pairwise.filter _

/-- Masks that ink the same pixels list them alike, whatever their sides are. -/
theorem inked_congr {m m' : Mask} (h : ∀ p, m'.get p = m.get p) : m'.inked = m.inked := by
  refine m'.inked_pairwise.eq_of_mem_iff m.inked_pairwise fun p => ?_
  rw [mem_inked, mem_inked, h]

/-- Of two pixels of the canvas, the one a scan meets first is stored first. -/
theorem index_lt_index {m : Mask} {p q : Pixel} (hp : m.Contains p) (h : p.Before q) :
    m.index p < m.index q := by
  have hx := UInt32.lt_iff_toNat_lt.mp hp.1
  rw [index, index]
  rcases h with hy | ⟨hy, hpq⟩
  · have hrow : (p.y.toNat + 1) * m.width.toNat ≤ q.y.toNat * m.width.toNat :=
      Nat.mul_le_mul_right _ (UInt32.lt_iff_toNat_lt.mp hy)
    rw [Nat.succ_mul] at hrow
    omega
  · rw [hy]
    exact Nat.add_lt_add_left (UInt32.lt_iff_toNat_lt.mp hpq) _

theorem exists_index_eq {m : Mask} {i : Nat} (h : i < m.cells.size) :
    ∃ p, m.Contains p ∧ m.index p = i := by
  have hw : 0 < m.width.toNat := by
    have := m.contains_origin.1
    rw [UInt32.lt_iff_toNat_lt] at this
    omega
  have hx : i % m.width.toNat < m.width.toNat := Nat.mod_lt _ hw
  have hy : i / m.width.toNat < m.height.toNat := by
    rwa [Nat.div_lt_iff_lt_mul hw, Nat.mul_comm, ← m.size_cells]
  have hx' := UInt32.toNat_ofNat_of_lt' (hx.trans m.width.toNat_lt_size)
  have hy' := UInt32.toNat_ofNat_of_lt' (hy.trans m.height.toNat_lt_size)
  refine ⟨⟨UInt32.ofNat (i % m.width.toNat), UInt32.ofNat (i / m.width.toNat)⟩, ⟨?_, ?_⟩, ?_⟩
  · rw [UInt32.lt_iff_toNat_lt, hx']
    exact hx
  · rw [UInt32.lt_iff_toNat_lt, hy']
    exact hy
  · rw [index, hx', hy', Nat.mul_comm]
    exact Nat.div_add_mod i m.width.toNat

/-- A scan row by row reads the cells in the order they are stored in. -/
theorem map_index_pixels (m : Mask) : m.pixels.map m.index = List.range m.cells.size := by
  have hpixels : (m.pixels.map m.index).Pairwise (· < ·) := by
    refine List.pairwise_map.mpr (m.pixels_pairwise.imp_of_mem fun hp _ h => ?_)
    exact index_lt_index (mem_pixels.mp hp) h
  refine hpixels.eq_of_mem_iff List.pairwise_lt_range fun i => ?_
  rw [List.mem_map, List.mem_range]
  constructor
  · rintro ⟨p, hp, rfl⟩
    exact index_lt (mem_pixels.mp hp)
  · intro hi
    obtain ⟨p, hp, rfl⟩ := exists_index_eq hi
    exact ⟨p, mem_pixels.mpr hp, rfl⟩

theorem map_get_pixels (m : Mask) : m.pixels.map m.get = m.cells.toList := by
  have hget : m.pixels.map m.get = (m.pixels.map m.index).map fun i => m.cells.getD i false := by
    rw [List.map_map]
    refine List.map_congr_left fun p hp => ?_
    rw [get, if_pos (mem_pixels.mp hp)]
    rfl
  rw [hget, map_index_pixels]
  refine List.ext_getElem (by simp) fun i hi _ => ?_
  simp only [List.length_map, List.length_range] at hi
  simp [Array.getD, hi]

/-- The inked pixels are as many as the inked cells. -/
theorem length_inked (m : Mask) : m.inked.length = m.inkCount := by
  rw [inkCount, ← Array.count_toList, ← map_get_pixels, List.count, List.countP_map, inked,
    ← List.countP_eq_length_filter]
  refine List.countP_congr fun p _ => ?_
  simp

end Mask

end PenPlotter
