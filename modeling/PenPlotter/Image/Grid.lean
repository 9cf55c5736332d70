import PenPlotter.Pixel

/-!
# Grids

A grid is a rectangle of values, stored row by row; a side may be zero.  `tabulate` builds one
from a function of column and row, `map` changes every value by itself, and `at?` reads one back.
Main statements: a tabulated grid reads back its function (`at?_tabulate`), and its values are
those of the function (`mem_cells_tabulate`).
-/

namespace PenPlotter.Image

/-- A rectangle of values, stored row by row. -/
structure Grid (α : Type) where
  width : UInt32
  height : UInt32
  cells : Array α
  size_cells : cells.size = width.toNat * height.toNat

namespace Grid

variable {α β : Type}

/-- The grid with given sides and values, if the number of values fits. -/
def ofCells? (width height : UInt32) (cells : Array α) : Option (Grid α) :=
  if h : cells.size = width.toNat * height.toNat then some ⟨width, height, cells, h⟩ else none

/-- The grid whose value at column `x` and row `y` is `f x y`. -/
def tabulate (width height : UInt32) (f : Nat → Nat → α) : Grid α where
  width := width
  height := height
  cells := Array.ofFn fun i : Fin (width.toNat * height.toNat) =>
    f (i % width.toNat) (i / width.toNat)
  size_cells := Array.size_ofFn

/-- The value at column `x` and row `y`, if there is such a cell. -/
def at? (g : Grid α) (x y : Nat) : Option α :=
  if x < g.width.toNat then g.cells[y * g.width.toNat + x]? else none

/-- The grid with every value changed by itself. -/
def map (f : α → β) (g : Grid α) : Grid β where
  width := g.width
  height := g.height
  cells := g.cells.map f
  size_cells := by rw [Array.size_map, g.size_cells]

@[ext] theorem ext {g h : Grid α} (hw : g.width = h.width) (hh : g.height = h.height)
    (hc : g.cells = h.cells) : g = h := by
  obtain ⟨w, k, c, s⟩ := g
  obtain ⟨w', k', c', s'⟩ := h
  simp only at hw hh hc
  subst hw hh hc
  rfl

/-- A cell of the rectangle is stored within it. -/
theorem row_lt {x y w h : Nat} (hx : x < w) (hy : y < h) : y * w + x < w * h := by
  have h₁ : (y + 1) * w ≤ h * w := Nat.mul_le_mul_right w hy
  have h₂ : (y + 1) * w = y * w + w := Nat.succ_mul y w
  have h₃ : h * w = w * h := Nat.mul_comm h w
  omega

/-- A tabulated grid reads back its function. -/
theorem at?_tabulate {width height : UInt32} {f : Nat → Nat → α} {x y : Nat}
    (hx : x < width.toNat) (hy : y < height.toNat) :
    (tabulate width height f).at? x y = some (f x y) := by
  have hi := row_lt hx hy
  simp only [at?, tabulate, hx, if_true]
  rw [Array.getElem?_eq_getElem (by simpa using hi)]
  have hm : (y * width.toNat + x) % width.toNat = x := by
    rw [Nat.mul_comm, Nat.mul_add_mod]
    exact Nat.mod_eq_of_lt hx
  have hd : (y * width.toNat + x) / width.toNat = y := by
    rw [Nat.mul_comm, Nat.mul_add_div (by omega), Nat.div_eq_of_lt hx, Nat.add_zero]
  simp [hm, hd]

theorem mem_cells_tabulate {width height : UInt32} {f : Nat → Nat → α} {v : α}
    (h : v ∈ (tabulate width height f).cells) :
    ∃ x y, x < width.toNat ∧ y < height.toNat ∧ f x y = v := by
  simp only [tabulate, Array.mem_ofFn] at h
  obtain ⟨⟨i, hi⟩, rfl⟩ := h
  have hw : 0 < width.toNat := by
    rcases Nat.eq_zero_or_pos width.toNat with h0 | h0
    · rw [h0, Nat.zero_mul] at hi
      omega
    · exact h0
  refine ⟨i % width.toNat, i / width.toNat, Nat.mod_lt _ hw, ?_, rfl⟩
  rw [Nat.div_lt_iff_lt_mul hw, Nat.mul_comm]
  exact hi

end Grid

end PenPlotter.Image
