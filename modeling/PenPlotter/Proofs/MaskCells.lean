import PenPlotter.Proofs.LitCells

/-!
# What masks are made from and what they show

A mask is made from cells, from rows, or from a gray image, in two ways.  Whichever way it is made,
it shows what it was made from: `get_eq_getElem`, `get_of_ofRows` and `get_of_cells_map` say so of
the cell in the row and the column of a pixel.

* `ofRows_eq_ofCells`: rows of equal length are made into a mask as the cells are that follow one
  another in them.
* `ofGray_of_isBinary`, `exists_firstStray`: an image is refused for the first level, in the order
  of a scan, that is neither the lowest nor the highest (`Image.Gray.FirstStray`); without such a
  level every threshold from one on gives the same mask.

**Main statement** (`constructors_agree`): what can be read of a mask, and when and how the ways to
make one agree.
-/

namespace PenPlotter

namespace Image

/-- The pixel has a cell in the grid. -/
def Grid.Contains {α : Type} (g : Grid α) (p : Pixel) : Prop := p.x < g.width ∧ p.y < g.height

namespace Gray

/-- The level at the cell of a pixel, 0 where there is none. -/
def pixelLevel (g : Gray) (p : Pixel) : UInt8 := g.level p.x.toNat p.y.toNat

/-- The first pixel, in the order of a scan, whose level is neither the lowest nor the highest. -/
structure FirstStray (g : Gray) (p : Pixel) : Prop where
  contains : g.Contains p
  stray : g.pixelLevel p ≠ 0 ∧ g.pixelLevel p ≠ 255
  first : ∀ q, g.Contains q → q.Before p → g.pixelLevel q = 0 ∨ g.pixelLevel q = 255

end Gray

end Image

/-- There are rows, the first has a cell, and all have equally many. -/
structure Rectangular (rows : List (List Bool)) : Prop where
  row : rows ≠ []
  cell : rows.head? ≠ some []
  equal : ∀ row ∈ rows, ∀ row' ∈ rows, row.length = row'.length

namespace Mask

variable {m : Mask} {g : Image.Gray} {p : Pixel}

/-- What can be read of a mask: a cell of every pixel of the canvas, none outside, and the inked
pixels in the order of a scan. -/
structure Reads (m : Mask) : Prop where
  width : m.width ≠ 0
  height : m.height ≠ 0
  size : m.cells.size = m.width.toNat * m.height.toNat
  /-- The cell in the row and the column of a pixel is one of the cells. -/
  inside : ∀ p, m.Contains p →
    ∃ h : p.y.toNat * m.width.toNat + p.x.toNat < m.cells.size,
      m.get p = m.cells[p.y.toNat * m.width.toNat + p.x.toNat]
  outside : ∀ p, ¬ m.Contains p → m.get p = false
  once : ∀ p, m.inked.count p = if m.get p then 1 else 0
  ordered : m.inked.Pairwise Pixel.Before
  length : m.inked.length = m.inkCount

theorem get_eq_getElem (h : m.Contains p) :
    ∃ _ : m.index p < m.cells.size, m.get p = m.cells[m.index p] := by
  refine ⟨index_lt h, ?_⟩
  rw [get_of_contains h, Array.getElem?_eq_getElem (index_lt h), Option.getD_some]

theorem reads (m : Mask) : m.Reads where
  width := m.width_ne
  height := m.height_ne
  size := m.size_cells
  inside _ h := get_eq_getElem h
  outside _ h := get_of_not_contains h
  once p := by
    have hnodup : m.inked.Nodup := m.pixels_nodup.filter _
    split
    case isTrue hp => exact List.count_eq_one_of_mem hnodup (mem_inked.mpr hp)
    case isFalse hp => exact List.count_eq_zero_of_not_mem fun h => hp (mem_inked.mp h)
  ordered := m.inked_pairwise
  length := m.length_inked

/-! ### Cells -/

/-- Cells make a mask if they fill a canvas with two sides. -/
theorem ofCells_eq_ok_iff {width height : UInt32} {cells : Array Bool} :
    ofCells width height cells = .ok m ↔
      (width ≠ 0 ∧ height ≠ 0 ∧ cells.size = width.toNat * height.toNat) ∧
        m.width = width ∧ m.height = height ∧ m.cells = cells := by
  constructor
  · intro h
    obtain ⟨rfl, rfl, rfl⟩ := of_ofCells h
    exact ⟨⟨m.width_ne, m.height_ne, m.size_cells⟩, rfl, rfl, rfl⟩
  · rintro ⟨-, rfl, rfl, rfl⟩
    rw [ofCells, dif_neg m.width_ne, dif_neg m.height_ne, dif_pos m.size_cells]

/-- Without a cell there is no mask. -/
theorem ofCells_of_zero {width height : UInt32} (h : width = 0 ∨ height = 0) (cells : Array Bool) :
    ofCells width height cells = .error (.zeroDimensions width height) := by
  rw [ofCells]
  by_cases hwidth : width = 0
  · rw [dif_pos hwidth]
  · rw [dif_neg hwidth, dif_pos (h.resolve_left hwidth)]

/-! ### Rows -/

/-- The cells of rows of equal length follow one another. -/
theorem getElem?_flatten {rows : List (List Bool)} {width x : Nat}
    (h : ∀ row ∈ rows, row.length = width) (hx : x < width) (y : Nat) :
    rows.flatten[y * width + x]? = rows[y]?.bind (·[x]?) := by
  induction rows generalizing y with
  | nil => rfl
  | cons row rows ih =>
      obtain ⟨hrow, hrows⟩ := List.forall_mem_cons.mp h
      cases y with
      | zero =>
          rw [List.flatten_cons, Nat.zero_mul, Nat.zero_add,
            List.getElem?_append_left (by omega)]
          rfl
      | succ y =>
          have hbehind : (y + 1) * width + x = row.length + (y * width + x) := by
            rw [Nat.succ_mul]
            omega
          rw [List.flatten_cons, hbehind, List.getElem?_append_right (Nat.le_add_right _ _),
            Nat.add_sub_cancel_left, ih hrows]
          rfl

theorem exists_word_of_le_maxSide {n : Nat} (h : n ≤ maxSide) : ∃ w : UInt32, n = w.toNat := by
  refine ⟨UInt32.ofNat n, (UInt32.toNat_ofNat_of_lt' ?_).symm⟩
  simp only [maxSide, UInt32.size] at h ⊢
  omega

/-- Rows of equal length are made into a mask as the cells are that follow one another in them. -/
theorem ofRows_eq_ofCells {rows : List (List Bool)} {width height : UInt32} (hne : rows ≠ [])
    (hheight : rows.length = height.toNat) (hwidth : ∀ row ∈ rows, row.length = width.toNat) :
    ofRows rows = ofCells width height rows.flatten.toArray := by
  have hfirst : (rows.head?.map List.length).getD 0 = width.toNat := by
    obtain ⟨first, rest, rfl⟩ := List.exists_cons_of_ne_nil hne
    exact hwidth first List.mem_cons_self
  have hequal : rows.findIdx? (·.length ≠ width.toNat) = none := by
    rw [List.findIdx?_eq_none_iff]
    intro row hrow
    simp [hwidth row hrow]
  have hside : ∀ w : UInt32, ¬ w.toNat > maxSide := by
    intro w
    have := w.toNat_lt_size
    simp only [maxSide]
    omega
  simp only [ofRows, hfirst, hheight, hequal, hside, if_false, UInt32.ofNat_toNat]
  split
  case isTrue hzero =>
    have hsides : width = 0 ∨ height = 0 := by
      simpa only [← UInt32.toNat_inj, UInt32.toNat_zero] using hzero
    rw [ofCells_of_zero hsides]
  case isFalse => rfl

/-- Rows make the mask that has their cells, if they are as many and as long as its sides. -/
theorem ofRows_eq_ok_iff {rows : List (List Bool)} :
    ofRows rows = .ok m ↔ rows ≠ [] ∧ rows.length = m.height.toNat ∧
      (∀ row ∈ rows, row.length = m.width.toNat) ∧ m.cells = rows.flatten.toArray := by
  constructor
  · intro h
    simp only [ofRows] at h
    split at h
    · cases h
    split at h
    · cases h
    split at h
    · cases h
    split at h
    · cases h
    case h_2 hcolumns hrows hzero _ hequal =>
      obtain ⟨width, hwidth⟩ := exists_word_of_le_maxSide (Nat.le_of_not_gt hcolumns)
      obtain ⟨height, hheight⟩ := exists_word_of_le_maxSide (Nat.le_of_not_gt hrows)
      rw [hwidth, hheight, UInt32.ofNat_toNat, UInt32.ofNat_toNat] at h
      obtain ⟨-, rfl, rfl, hcells⟩ := ofCells_eq_ok_iff.mp h
      refine ⟨?_, hheight, fun row hrow => ?_, hcells⟩
      · rintro rfl
        exact hzero (.inl rfl)
      · have hlength := List.findIdx?_eq_none_iff.mp hequal row hrow
        rw [← hwidth]
        simpa using hlength
  · rintro ⟨hne, hheight, hwidth, hcells⟩
    rw [ofRows_eq_ofCells hne hheight hwidth, ofCells_eq_ok_iff]
    exact ⟨⟨m.width_ne, m.height_ne, hcells ▸ m.size_cells⟩, rfl, rfl, hcells⟩

/-- A mask made from rows shows them. -/
theorem get_of_ofRows {rows : List (List Bool)} (h : ofRows rows = .ok m) (p : Pixel) :
    m.get p = (rows[p.y.toNat]?.bind (·[p.x.toNat]?)).getD false := by
  obtain ⟨-, hheight, hwidth, hcells⟩ := ofRows_eq_ok_iff.mp h
  by_cases hp : m.Contains p
  · have hx := UInt32.lt_iff_toNat_lt.mp hp.1
    rw [get_of_contains hp, hcells, List.getElem?_toArray, index, getElem?_flatten hwidth hx]
  · rw [get_of_not_contains hp]
    cases hrow : rows[p.y.toNat]? with
    | none => rfl
    | some row =>
        obtain ⟨hy, hrow⟩ := List.getElem?_eq_some_iff.mp hrow
        have hlength := hwidth row (hrow ▸ List.getElem_mem hy)
        have hx : row.length ≤ p.x.toNat := by
          rw [hheight] at hy
          by_contra hx
          exact hp ⟨UInt32.lt_iff_toNat_lt.mpr (by omega), UInt32.lt_iff_toNat_lt.mpr hy⟩
        rw [Option.bind_some, List.getElem?_eq_none hx, Option.getD_none]

theorem length_flatten {rows : List (List Bool)} {width : Nat}
    (h : ∀ row ∈ rows, row.length = width) : rows.flatten.length = width * rows.length := by
  induction rows with
  | nil => rfl
  | cons row rows ih =>
      obtain ⟨hrow, hrows⟩ := List.forall_mem_cons.mp h
      rw [List.flatten_cons, List.length_append, hrow, ih hrows, List.length_cons, Nat.mul_succ,
        Nat.add_comm]

/-- Rows make a mask if they are a rectangle, and none is longer than a side can be. -/
theorem exists_ofRows_eq_ok_iff {rows : List (List Bool)} (hrows : rows.length ≤ maxSide)
    (hcolumns : ∀ row ∈ rows, row.length ≤ maxSide) :
    (∃ m, ofRows rows = .ok m) ↔ Rectangular rows := by
  constructor
  · rintro ⟨m, hm⟩
    obtain ⟨hne, -, hwidth, -⟩ := ofRows_eq_ok_iff.mp hm
    refine ⟨hne, fun hempty => ?_, fun row hrow row' hrow' => ?_⟩
    · have hzero : m.width.toNat = 0 := (hwidth [] (List.mem_of_head? hempty)).symm
      exact m.width_ne (UInt32.toNat_inj.mp hzero)
    · rw [hwidth row hrow, hwidth row' hrow']
  · rintro ⟨hne, hcell, hequal⟩
    obtain ⟨first, rest, rfl⟩ := List.exists_cons_of_ne_nil hne
    obtain ⟨height, hheight⟩ := exists_word_of_le_maxSide hrows
    obtain ⟨width, hwidth⟩ := exists_word_of_le_maxSide (hcolumns first List.mem_cons_self)
    have hall : ∀ row ∈ first :: rest, row.length = width.toNat := fun row hrow =>
      (hequal row hrow first List.mem_cons_self).trans hwidth
    have hw : width ≠ 0 := by
      rintro rfl
      exact hcell (by rw [List.head?_cons, List.length_eq_zero_iff.mp hwidth])
    have hh : height ≠ 0 := by
      rintro rfl
      exact hne (List.length_eq_zero_iff.mp hheight)
    have hsize : (first :: rest).flatten.toArray.size = width.toNat * height.toNat := by
      rw [List.size_toArray, length_flatten hall, hheight]
    rw [ofRows_eq_ofCells hne hheight hall]
    exact ⟨⟨width, height, _, hw, hh, hsize⟩,
      ofCells_eq_ok_iff.mpr ⟨⟨hw, hh, hsize⟩, rfl, rfl, rfl⟩⟩

/-! ### Images -/

/-- The level of a pixel of the canvas is stored where the cell of a mask with these sides is. -/
theorem pixelLevel_eq_getElem (hwidth : m.width = g.width) (hheight : m.height = g.height)
    (hp : m.Contains p) :
    ∃ _ : m.index p < g.cells.size, g.pixelLevel p = g.cells[m.index p] := by
  have hi : m.index p < g.cells.size := by
    rw [g.size_cells, ← hwidth, ← hheight, ← m.size_cells]
    exact index_lt hp
  have hx : p.x.toNat < g.width.toNat := hwidth ▸ UInt32.lt_iff_toNat_lt.mp hp.1
  refine ⟨hi, ?_⟩
  rw [Image.Gray.pixelLevel, Image.Gray.level, Image.Grid.at?, if_pos hx, ← hwidth, ← index,
    Array.getElem?_eq_getElem hi, Option.getD_some]

/-- A mask made from an image cell by cell shows the cells that pass the test. -/
theorem get_of_cells_map {f : UInt8 → Bool} (hwidth : m.width = g.width)
    (hheight : m.height = g.height) (hcells : m.cells = g.cells.map f) :
    m.get p = true ↔ g.Contains p ∧ f (g.pixelLevel p) = true := by
  have hcontains : m.Contains p ↔ g.Contains p := by
    rw [Contains, Image.Grid.Contains, hwidth, hheight]
  by_cases hp : m.Contains p
  · obtain ⟨hi, hget⟩ := get_eq_getElem hp
    obtain ⟨hi', hlevel⟩ := pixelLevel_eq_getElem hwidth hheight hp
    rw [hget, hlevel, ← hcontains]
    simp [hp, hcells]
  · rw [get_of_not_contains hp, ← hcontains]
    simp [hp]

/-- A mask made from an image without a threshold shows its cells of the highest level. -/
theorem get_of_ofGray (h : ofGray g = .ok m) (p : Pixel) :
    m.get p = true ↔ g.Contains p ∧ g.pixelLevel p = 255 := by
  rw [ofGray] at h
  split at h
  · cases h
  · obtain ⟨hwidth, hheight, hcells⟩ := of_ofCells h
    rw [get_of_cells_map hwidth hheight hcells, beq_iff_eq]

/-- A threshold makes a mask of every image with cells. -/
theorem exists_ofThreshold_eq_ok (hwidth : g.width ≠ 0) (hheight : g.height ≠ 0) (level : UInt8) :
    ∃ m, ofThreshold g level = .ok m ∧ m.width = g.width ∧ m.height = g.height ∧
      ∀ p, m.get p = true ↔ g.Contains p ∧ level ≤ g.pixelLevel p := by
  let cells := g.cells.map fun v => decide (level ≤ v)
  have hsize : cells.size = g.width.toNat * g.height.toNat := by
    rw [Array.size_map, g.size_cells]
  let m : Mask := ⟨g.width, g.height, cells, hwidth, hheight, hsize⟩
  refine ⟨m, ofCells_eq_ok_iff.mpr ⟨⟨hwidth, hheight, hsize⟩, rfl, rfl, rfl⟩, rfl, rfl, fun p => ?_⟩
  rw [get_of_cells_map (m := m) rfl rfl rfl, decide_eq_true_iff]

/-- Every threshold from one on makes the same mask of a binary image. -/
theorem ofGray_eq_ofThreshold (h : g.IsBinary) {level : UInt8} (hlevel : level ≠ 0) :
    ofGray g = ofThreshold g level := by
  have hcells : g.cells.map (· == 255) = g.cells.map fun v => decide (level ≤ v) := by
    refine Array.map_congr_left fun v hv => ?_
    have hpos : 0 < level.toNat :=
      Nat.pos_of_ne_zero fun hzero => hlevel (UInt8.toNat_inj.mp hzero)
    have hlt := level.toNat_lt
    rcases h v hv with rfl | rfl
    · simp [UInt8.le_iff_toNat_le]
      omega
    · simp [UInt8.le_iff_toNat_le]
      omega
  rw [ofGray_of_isBinary h, ofThreshold, hcells]

theorem index_mod_div (hp : m.Contains p) :
    m.index p % m.width.toNat = p.x.toNat ∧ m.index p / m.width.toNat = p.y.toNat := by
  have hx := UInt32.lt_iff_toNat_lt.mp hp.1
  rw [index, Nat.mul_comm, Nat.mul_add_mod, Nat.mul_add_div (by omega), Nat.mod_eq_of_lt hx,
    Nat.div_eq_of_lt hx]
  exact ⟨rfl, Nat.add_zero _⟩

/-- An image with another level than the lowest and the highest is refused for the first of them. -/
theorem exists_firstStray (h : ¬ g.IsBinary) :
    ∃ p, g.FirstStray p ∧
      ofGray g = .error (.notBinary p.x.toNat p.y.toNat (g.pixelLevel p)) := by
  cases hfind : g.cells.findIdx? fun v => v ≠ 0 ∧ v ≠ 255 with
  | none =>
      refine absurd (fun v hv => ?_) h
      have hv := Array.findIdx?_eq_none_iff.mp hfind v hv
      simpa [or_iff_not_imp_left] using hv
  | some i =>
      obtain ⟨hi, hstray, hfirst⟩ := Array.findIdx?_eq_some_iff_getElem.mp hfind
      have hcells : 0 < g.width.toNat * g.height.toNat := by
        rw [← g.size_cells]
        omega
      have hw : g.width ≠ 0 := fun hw => by simp [hw] at hcells
      have hh : g.height ≠ 0 := fun hh => by simp [hh] at hcells
      -- The pixels of the image are those of a mask with its sides.
      obtain ⟨m, -, hwidth, hheight, -⟩ := exists_ofThreshold_eq_ok hw hh 0
      have hsize : m.cells.size = g.cells.size := by
        rw [m.size_cells, g.size_cells, hwidth, hheight]
      obtain ⟨p, hp, rfl⟩ := exists_index_eq (hsize ▸ hi)
      obtain ⟨hmod, hdiv⟩ := index_mod_div hp
      obtain ⟨_, hlevel⟩ := pixelLevel_eq_getElem hwidth hheight hp
      refine ⟨p, ⟨⟨hwidth ▸ hp.1, hheight ▸ hp.2⟩, ?_, fun q hq hqp => ?_⟩, ?_⟩
      · rw [hlevel]
        simpa using hstray
      · have hq : m.Contains q := ⟨hwidth ▸ hq.1, hheight ▸ hq.2⟩
        have hdull := hfirst (m.index q) (index_lt_index hq hqp)
        obtain ⟨_, hlevel⟩ := pixelLevel_eq_getElem hwidth hheight hq
        rw [hlevel]
        simpa [or_iff_not_imp_left] using hdull
      · rw [ofGray, hfind]
        simp only [← hwidth, hmod, hdiv, Array.getD, hi, dif_pos, hlevel]
        rfl

/-- **The ways to make a mask agree, and what can be read of it.**  Every mask has two sides and as
many cells as they ask for; of a pixel of the canvas it shows the cell in the row and the column of
the pixel, of another none, and it lists the inked pixels once, in the order of a scan, as many as
there are inked cells.

Cells make a mask if they fill a canvas with two sides.  Rows make a mask if there are some, the
first has a cell and all are equally long; it is the one that their cells make, one row behind the
other.  An image with cells makes a mask by every threshold.  If its levels are the lowest and the
highest alone, it makes that mask without a threshold, whatever the threshold is from one on;
otherwise it is refused, for the first pixel with another level. -/
theorem constructors_agree :
    (∀ m : Mask, m.Reads) ∧
      (∀ width height cells m, ofCells width height cells = .ok m ↔
        (width ≠ 0 ∧ height ≠ 0 ∧ cells.size = width.toNat * height.toNat) ∧
          m.width = width ∧ m.height = height ∧ m.cells = cells) ∧
      (∀ rows, rows.length ≤ maxSide → (∀ row ∈ rows, row.length ≤ maxSide) →
        ((∃ m, ofRows rows = .ok m) ↔ Rectangular rows)) ∧
      (∀ rows m, ofRows rows = .ok m →
        rows.length = m.height.toNat ∧ (∀ row ∈ rows, row.length = m.width.toNat) ∧
          ofCells m.width m.height rows.flatten.toArray = .ok m ∧
          ∀ p, m.get p = (rows[p.y.toNat]?.bind (·[p.x.toNat]?)).getD false) ∧
      ∀ g : Image.Gray, g.width ≠ 0 → g.height ≠ 0 →
        (∀ level, ∃ m, ofThreshold g level = .ok m ∧ m.width = g.width ∧ m.height = g.height ∧
          ∀ p, m.get p = true ↔ g.Contains p ∧ level ≤ g.pixelLevel p) ∧
        ((∃ m, ofGray g = .ok m) ↔ g.IsBinary) ∧
        (g.IsBinary → ∀ level, level ≠ 0 → ofGray g = ofThreshold g level) ∧
        (¬ g.IsBinary → ∃ p, g.FirstStray p ∧
          ofGray g = .error (.notBinary p.x.toNat p.y.toNat (g.pixelLevel p))) := by
  refine ⟨reads, fun width height cells m => ofCells_eq_ok_iff,
    fun rows hrows hcolumns => exists_ofRows_eq_ok_iff hrows hcolumns, fun rows m hm => ?_,
    fun g hwidth hheight => ⟨exists_ofThreshold_eq_ok hwidth hheight, ?_,
      fun hg level hlevel => ofGray_eq_ofThreshold hg hlevel, exists_firstStray⟩⟩
  · obtain ⟨hne, hheight, hwidth, hcells⟩ := ofRows_eq_ok_iff.mp hm
    have hmade := ofRows_eq_ofCells hne hheight hwidth
    exact ⟨hheight, hwidth, hmade.symm.trans hm, get_of_ofRows hm⟩
  · constructor
    · rintro ⟨m, hm⟩
      by_contra hg
      obtain ⟨p, -, hp⟩ := exists_firstStray hg
      rw [hm] at hp
      cases hp
    · intro hg
      exact (exists_ofGray_eq_ok_iff hg).mpr ⟨hwidth, hheight⟩

/-- Two rows of three cells, and an image with two levels between the lowest and the highest. -/
theorem constructors_agree_small :
    Rectangular [[true, false, true], [false, true, true]] ∧
      (∃ m, ofRows [[true, false, true], [false, true, true]] = .ok m ∧
        ofCells m.width m.height #[true, false, true, false, true, true] = .ok m ∧
        m.get ⟨0, 1⟩ = false ∧ m.get ⟨2, 1⟩ = true) ∧
      ¬ Image.Gray.IsBinary ⟨2, 2, #[255, 7, 9, 0], rfl⟩ ∧
      ∃ p, Image.Gray.FirstStray ⟨2, 2, #[255, 7, 9, 0], rfl⟩ p ∧
        ofGray ⟨2, 2, #[255, 7, 9, 0], rfl⟩ = .error (.notBinary p.x.toNat p.y.toNat
          (Image.Gray.pixelLevel ⟨2, 2, #[255, 7, 9, 0], rfl⟩ p)) := by
  obtain ⟨-, -, hrows, hmade, himages⟩ := constructors_agree
  have hrectangle : Rectangular [[true, false, true], [false, true, true]] :=
    ⟨by decide, by decide, by decide⟩
  have hstray : ¬ Image.Gray.IsBinary ⟨2, 2, #[255, 7, 9, 0], rfl⟩ := fun h =>
    absurd (h 7 (by simp)) (by decide)
  obtain ⟨m, hm⟩ := (hrows _ (by decide) (by decide)).mpr hrectangle
  obtain ⟨-, -, hcells, hget⟩ := hmade _ m hm
  obtain ⟨-, -, -, hrefused⟩ := himages ⟨2, 2, #[255, 7, 9, 0], rfl⟩ (by decide) (by decide)
  exact ⟨hrectangle, ⟨m, hm, hcells, hget ⟨0, 1⟩, hget ⟨2, 1⟩⟩, hstray, hrefused hstray⟩

end Mask

end PenPlotter
