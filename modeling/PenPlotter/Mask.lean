import PenPlotter.Image.Gray
import PenPlotter.Numeric.Digits

/-!
# Masks

A mask says of every cell of a canvas whether it is inked.  Its sides are never zero and its cells
fill the canvas, row by row.  A pixel off the canvas reads as blank.

Masks are made from cells, from rows, or from a gray image, either one that holds only the lowest
and the highest level or any one by a threshold.  `Defect` lists what can be wrong with the input.
Main statements: erasing a pixel blanks it and nothing else (`get_erase`), and an inked pixel less
is one fewer to draw (`inkCount_erase`).
-/

namespace PenPlotter

/-- Which cells of a canvas are inked. -/
structure Mask where
  width : UInt32
  height : UInt32
  cells : Array Bool
  width_ne : width ≠ 0
  height_ne : height ≠ 0
  size_cells : cells.size = width.toNat * height.toNat

namespace Mask

/-- What can be wrong with the input a mask is made from. -/
inductive Defect where
  /-- A side is zero. -/
  | zeroDimensions (width height : UInt32)
  /-- There are more or fewer cells than the sides ask for. -/
  | sizeMismatch (expected found : Nat)
  /-- A row is longer or shorter than the first. -/
  | raggedRow (row expected found : Nat)
  /-- A level is neither the lowest nor the highest. -/
  | notBinary (x y : Nat) (value : UInt8)
  deriving DecidableEq, Repr

/-- The wording of a defect. -/
def Defect.message : Defect → String
  | zeroDimensions width height =>
    "mask dimensions must be non-zero, got " ++ Numeric.decimal width.toNat ++ "x"
      ++ Numeric.decimal height.toNat
  | sizeMismatch expected found =>
    "mask data has " ++ Numeric.decimal found ++ " cells, expected " ++ Numeric.decimal expected
  | raggedRow row expected found =>
    "mask row " ++ Numeric.decimal row ++ " has " ++ Numeric.decimal found ++ " cells, expected "
      ++ Numeric.decimal expected
  | notBinary x y value =>
    "mask value " ++ Numeric.decimal value.toNat ++ " at (" ++ Numeric.decimal x ++ ", "
      ++ Numeric.decimal y ++ ") is not binary"

/-! ### Making masks -/

/-- The mask with given sides and cells. -/
def ofCells (width height : UInt32) (cells : Array Bool) : Except Defect Mask :=
  if hw : width = 0 then .error (.zeroDimensions width height)
  else if hh : height = 0 then .error (.zeroDimensions width height)
  else if hc : cells.size = width.toNat * height.toNat then .ok ⟨width, height, cells, hw, hh, hc⟩
  else .error (.sizeMismatch (width.toNat * height.toNat) cells.size)

/-- The number of rows and columns a mask can have at most. -/
def maxSide : Nat := UInt32.size - 1

/-- The mask with given rows. -/
def ofRows (rows : List (List Bool)) : Except Defect Mask :=
  let expected := (rows.head?.map List.length).getD 0
  if expected > maxSide then .error (.sizeMismatch maxSide expected)
  else if rows.length > maxSide then .error (.sizeMismatch maxSide rows.length)
  else if expected = 0 ∨ rows.length = 0 then
    .error (.zeroDimensions (UInt32.ofNat expected) (UInt32.ofNat rows.length))
  else
    match rows.findIdx? (·.length ≠ expected) with
    | some row => .error (.raggedRow row expected ((rows[row]?.map List.length).getD 0))
    | none => ofCells (UInt32.ofNat expected) (UInt32.ofNat rows.length) rows.flatten.toArray

/-- The mask of an image that holds only the lowest and the highest level. -/
def ofGray (image : Image.Gray) : Except Defect Mask :=
  match image.cells.findIdx? fun v => v ≠ 0 ∧ v ≠ 255 with
  | some i =>
    .error (.notBinary (i % image.width.toNat) (i / image.width.toNat) (image.cells.getD i 0))
  | none => ofCells image.width image.height (image.cells.map (· == 255))

/-- The mask of the cells of an image at or above a level. -/
def ofThreshold (image : Image.Gray) (level : UInt8) : Except Defect Mask :=
  ofCells image.width image.height (image.cells.map fun v => decide (level ≤ v))

/-! ### Reading masks -/

/-- The canvas of a mask. -/
def dimensions (m : Mask) : Dimensions := ⟨m.width, m.height⟩

/-- The pixel lies on the canvas. -/
def Contains (m : Mask) (p : Pixel) : Prop := p.x < m.width ∧ p.y < m.height

instance (m : Mask) (p : Pixel) : Decidable (m.Contains p) :=
  inferInstanceAs (Decidable (_ ∧ _))

/-- Where the cell of a pixel on the canvas is stored. -/
def index (m : Mask) (p : Pixel) : Nat := p.y.toNat * m.width.toNat + p.x.toNat

/-- Whether a pixel is inked; pixels off the canvas are blank. -/
def get (m : Mask) (p : Pixel) : Bool :=
  if m.Contains p then m.cells.getD (m.index p) false else false

/-- How many cells are inked. -/
def inkCount (m : Mask) : Nat := m.cells.count true

/-- The pixels of the canvas, row by row. -/
def pixels (m : Mask) : List Pixel :=
  (List.range m.height.toNat).flatMap fun y =>
    (List.range m.width.toNat).map fun x => ⟨UInt32.ofNat x, UInt32.ofNat y⟩

/-- The inked pixels, row by row. -/
def inked (m : Mask) : List Pixel := m.pixels.filter m.get

/-- The mask with one pixel blanked. -/
def erase (m : Mask) (p : Pixel) : Mask :=
  if m.Contains p then
    { m with
      cells := m.cells.setIfInBounds (m.index p) false
      size_cells := by rw [Array.size_setIfInBounds, m.size_cells] }
  else m

/-! ### What erasing does -/

theorem index_lt {m : Mask} {p : Pixel} (h : m.Contains p) : m.index p < m.cells.size := by
  rw [m.size_cells]
  exact Image.Grid.row_lt (UInt32.lt_iff_toNat_lt.mp h.1) (UInt32.lt_iff_toNat_lt.mp h.2)

/-- Two pixels of the canvas are stored in different places. -/
theorem index_inj {m : Mask} {p q : Pixel} (hp : m.Contains p) (hq : m.Contains q)
    (h : m.index p = m.index q) : p = q := by
  have hpx := UInt32.lt_iff_toNat_lt.mp hp.1
  have hqx := UInt32.lt_iff_toNat_lt.mp hq.1
  have key : ∀ {a b x y w : Nat}, x < w → y < w → a * w + x = b * w + y → a = b ∧ x = y := by
    intro a b x y w hx hy e
    have hm := congrArg (· % w) e
    have hd := congrArg (· / w) e
    simp only [Nat.mul_comm _ w, Nat.mul_add_mod, Nat.mod_eq_of_lt hx, Nat.mod_eq_of_lt hy] at hm
    simp only [Nat.mul_comm _ w, Nat.mul_add_div (show w > 0 by omega), Nat.div_eq_of_lt hx,
      Nat.div_eq_of_lt hy] at hd
    omega
  obtain ⟨hy, hx⟩ := key hpx hqx h
  obtain ⟨px, py⟩ := p
  obtain ⟨qx, qy⟩ := q
  congr 1
  · exact UInt32.toNat_inj.mp hx
  · exact UInt32.toNat_inj.mp hy

theorem contains_of_get {m : Mask} {p : Pixel} (h : m.get p = true) : m.Contains p := by
  unfold get at h
  split at h
  · assumption
  · cases h

theorem get_of_contains {m : Mask} {p : Pixel} (h : m.Contains p) :
    m.get p = (m.cells[m.index p]?).getD false := by
  rw [get, if_pos h, Array.getD_eq_getD_getElem?]

theorem get_of_not_contains {m : Mask} {p : Pixel} (h : ¬ m.Contains p) : m.get p = false :=
  if_neg h

@[simp] theorem sides_erase (m : Mask) (p : Pixel) :
    (m.erase p).width = m.width ∧ (m.erase p).height = m.height := by
  unfold erase
  split <;> exact ⟨rfl, rfl⟩

theorem contains_erase {m : Mask} {p q : Pixel} : (m.erase p).Contains q ↔ m.Contains q := by
  simp only [Contains, sides_erase]

theorem index_erase (m : Mask) (p q : Pixel) : (m.erase p).index q = m.index q := by
  simp only [index, sides_erase]

theorem cells_erase {m : Mask} {p : Pixel} (h : m.Contains p) :
    (m.erase p).cells = m.cells.setIfInBounds (m.index p) false := by
  rw [erase, if_pos h]

theorem erase_of_not_contains {m : Mask} {p : Pixel} (h : ¬ m.Contains p) : m.erase p = m :=
  if_neg h

/-- Erasing a pixel blanks it and nothing else. -/
theorem get_erase (m : Mask) (p q : Pixel) :
    (m.erase p).get q = (m.get q && decide (q ≠ p)) := by
  by_cases hp : m.Contains p
  · by_cases hq : m.Contains q
    · rw [get_of_contains (contains_erase.mpr hq), get_of_contains hq, cells_erase hp, index_erase,
        Array.getElem?_setIfInBounds]
      by_cases e : q = p
      · subst e
        simp [index_lt hq]
      · have : ¬ m.index p = m.index q := fun h => e (index_inj hp hq h).symm
        simp [this, e]
    · rw [get_of_not_contains hq, get_of_not_contains (fun h => hq (contains_erase.mp h))]
      rfl
  · rw [erase_of_not_contains hp]
    by_cases e : q = p
    · subst e
      simp [get_of_not_contains hp]
    · simp [e]

/-- An inked pixel less is one fewer to draw. -/
theorem inkCount_erase {m : Mask} {p : Pixel} (h : m.get p = true) :
    (m.erase p).inkCount + 1 = m.inkCount := by
  have hp := contains_of_get h
  have hi := index_lt hp
  rw [get_of_contains hp, Array.getElem?_eq_getElem hi] at h
  have hcell : m.cells[m.index p] = true := h
  have hpos : 0 < m.cells.count true :=
    Array.count_pos_iff.mpr (hcell ▸ Array.getElem_mem hi)
  rw [inkCount, inkCount, cells_erase hp, Array.setIfInBounds, dif_pos hi, Array.count_set, hcell]
  simp
  omega

end Mask

end PenPlotter
