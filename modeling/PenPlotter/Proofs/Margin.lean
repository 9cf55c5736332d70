import PenPlotter.Proofs.Separation

/-!
# Empty canvas on the right and below

A mask with a *margin* shows what a smaller one shows and is blank beyond it (`Mask.Margin`).  Its
rows are longer, so every cell is stored in another place and the scan meets other pixels, but the
same pixels are inked.

* `islands_eq_scan_inked`: the scan can leave out the blank pixels, for a visit to one of them
  changes nothing.
* `islands_congr`: masks that ink the same pixels have the same islands.  The scans visit the same
  pixels then, and keep `Extraction.Alike`: the islands found are the same, and so is what remains
  inked.

**Main statement** (`islands_of_margin`): a margin changes neither the islands nor the commands.
-/

namespace PenPlotter

namespace Extraction

/-- Two scans that have found the same islands and leave the same pixels inked. -/
structure Alike (s s' : Extraction) : Prop where
  remaining : ∀ p, s'.remaining.get p = s.remaining.get p
  islands : s'.islands = s.islands

/-- Alike scans find the same island, by floods in lockstep on the whole canvas. -/
theorem Alike.visit {s s' : Extraction} (h : Alike s s') (p : Pixel) :
    Alike (s.visit p) (s'.visit p) := by
  by_cases hp : s.remaining.get p = true
  · have hp' : s'.remaining.get p = true := (h.remaining p).trans hp
    have hlock : Flood.Lockstep Set.univ (Flood.start s.remaining p).finish
        (Flood.start s'.remaining p).finish := by
      refine (Flood.lockstep_start ?_ (fun _ _ _ _ _ _ => trivial) trivial).finish
      intro q
      rw [h.remaining q]
      exact (and_iff_left trivial).symm
    rw [visit_of_get hp, visit_of_get hp']
    constructor
    · intro q
      exact Bool.eq_iff_iff.mpr ((hlock.remaining q).trans (and_iff_left trivial))
    · rw [h.islands, Flood.island, Flood.island, hlock.found]
  · have hp' : ¬ s'.remaining.get p = true := by
      rw [h.remaining p]
      exact hp
    rw [visit_of_blank hp, visit_of_blank hp']
    exact h

theorem Alike.foldl {s s' : Extraction} (h : Alike s s') (ps : List Pixel) :
    Alike (ps.foldl Extraction.visit s) (ps.foldl Extraction.visit s') := by
  induction ps generalizing s s' with
  | nil => exact h
  | cons p ps ih => exact ih (h.visit p)

/-- Pixels that do not remain inked need no visit. -/
theorem foldl_visit_filter {ink : Pixel → Bool} {s : Extraction}
    (h : ∀ q, s.remaining.get q = true → ink q = true) (ps : List Pixel) :
    (ps.filter ink).foldl visit s = ps.foldl visit s := by
  induction ps generalizing s with
  | nil => rfl
  | cons p ps ih =>
      by_cases hp : ink p = true
      · rw [List.filter_cons_of_pos hp, List.foldl_cons, List.foldl_cons]
        exact ih fun q hq => h q (get_of_visit hq)
      · rw [List.filter_cons_of_neg hp, List.foldl_cons, visit_of_blank fun hq => hp (h p hq)]
        exact ih h

end Extraction

namespace Mask

/-- The scan can leave out the blank pixels. -/
theorem islands_eq_scan_inked (m : Mask) :
    m.islands = (m.inked.foldl Extraction.visit (Extraction.start m)).islands.reverse := by
  have hskip : (m.pixels.filter m.get).foldl Extraction.visit (.start m) =
      m.pixels.foldl Extraction.visit (.start m) :=
    Extraction.foldl_visit_filter (fun _ hq => hq) m.pixels
  rw [inked, hskip, islands]

/-- **Masks that ink the same pixels have the same islands**, whatever their sides are. -/
theorem islands_congr {m m' : Mask} (h : ∀ p, m'.get p = m.get p) : m'.islands = m.islands := by
  have hstart : Extraction.Alike (.start m) (.start m') := ⟨h, rfl⟩
  rw [islands_eq_scan_inked, islands_eq_scan_inked m, inked_congr h, (hstart.foldl _).islands]

/-! ### Margins -/

/-- The mask `m'` shows on the canvas of `m` what `m` shows, and is blank beyond it. -/
structure Margin (m m' : Mask) : Prop where
  inside : ∀ p, m.Contains p → m'.get p = m.get p
  outside : ∀ p, ¬ m.Contains p → m'.get p = false

theorem Margin.get_eq {m m' : Mask} (h : m.Margin m') (p : Pixel) : m'.get p = m.get p := by
  by_cases hp : m.Contains p
  · exact h.inside p hp
  · rw [h.outside p hp, get_of_not_contains hp]

/-- What a canvas with given sides shows of the plane that the mask is drawn on. -/
def onCanvas (m : Mask) (width height : UInt32) (hw : width ≠ 0) (hh : height ≠ 0) : Mask :=
  let grid := Image.Grid.tabulate width height fun x y =>
    m.get ⟨UInt32.ofNat x, UInt32.ofNat y⟩
  ⟨width, height, grid.cells, hw, hh, grid.size_cells⟩

theorem get_onCanvas {m : Mask} {width height : UInt32} {hw : width ≠ 0} {hh : height ≠ 0}
    {p : Pixel} (hp : (m.onCanvas width height hw hh).Contains p) :
    (m.onCanvas width height hw hh).get p = m.get p := by
  have hx := UInt32.lt_iff_toNat_lt.mp hp.1
  have hcell := Image.Grid.at?_tabulate (f := fun x y => m.get ⟨UInt32.ofNat x, UInt32.ofNat y⟩)
    hx (UInt32.lt_iff_toNat_lt.mp hp.2)
  rw [UInt32.ofNat_toNat, UInt32.ofNat_toNat] at hcell
  rw [get_of_contains hp]
  exact congrArg (Option.getD · false) ((if_pos hx).symm.trans hcell)

/-- A larger canvas shows the mask with a margin. -/
theorem margin_onCanvas {m : Mask} {width height : UInt32} {hw : width ≠ 0} {hh : height ≠ 0}
    (hwidth : m.width ≤ width) (hheight : m.height ≤ height) :
    m.Margin (m.onCanvas width height hw hh) := by
  constructor
  · intro p hp
    exact get_onCanvas ⟨UInt32.lt_of_lt_of_le hp.1 hwidth, UInt32.lt_of_lt_of_le hp.2 hheight⟩
  · intro p hp
    by_cases hp' : (m.onCanvas width height hw hh).Contains p
    · exact (get_onCanvas hp').trans (get_of_not_contains hp)
    · exact get_of_not_contains hp'

/-- **Empty canvas on the right and below changes no command.**  For every mask and all larger
sides there is a mask with these sides that shows the same and is blank elsewhere.  It has the same
islands, pixel for pixel and in the same order, and its program differs in the canvas only. -/
theorem islands_of_margin (m : Mask) {width height : UInt32} (hw : m.width ≤ width)
    (hh : m.height ≤ height) :
    (∃ m', m'.width = width ∧ m'.height = height ∧ m.Margin m') ∧
      ∀ m', m'.width = width → m'.height = height → m.Margin m' →
        m'.islands = m.islands ∧
          m'.compile = { m.compile with dimensions := ⟨width, height⟩ } := by
  constructor
  · have hw' : width ≠ 0 := by
      rintro rfl
      exact m.width_ne (UInt32.le_zero_iff.mp hw)
    have hh' : height ≠ 0 := by
      rintro rfl
      exact m.height_ne (UInt32.le_zero_iff.mp hh)
    exact ⟨m.onCanvas width height hw' hh', rfl, rfl, margin_onCanvas hw hh⟩
  · rintro m' rfl rfl h
    have hislands := islands_congr h.get_eq
    refine ⟨hislands, ?_⟩
    rw [compile, compile, hislands]
    rfl

/-- Two columns and a row more than a ring with a pixel inside. -/
theorem islands_of_margin_ring :
    ringed.width ≤ 7 ∧ ringed.height ≤ 6 ∧
      (∃ m', m'.width = 7 ∧ m'.height = 6 ∧ ringed.Margin m') ∧
        ∀ m', m'.width = 7 → m'.height = 6 → ringed.Margin m' →
          m'.islands = ringed.islands ∧
            m'.compile = { ringed.compile with dimensions := ⟨7, 6⟩ } := by
  have hw : ringed.width ≤ 7 := by decide
  have hh : ringed.height ≤ 6 := by decide
  exact ⟨hw, hh, islands_of_margin ringed hw hh⟩

end Mask

end PenPlotter
