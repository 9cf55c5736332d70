import PenPlotter.Proofs.Diagnostics

/-!
# How a photo comes out

A photo comes out in one of five ways, and the first that applies is the one (`ComesTo`,
`process_eq_iff`): the settings are not valid, there are no bytes, the decoder refuses the bytes, the
image has no cells, or there is a program.  What the filter chain makes of the photo is binary and
as large, so it is refused as a mask only for having no cells (`Mask.ofGray_eq_error`).

What the filter chain hands to its filters is what they ask for (`Settings.Suits`): the spread of a
blur is positive, and the thresholds of the edge detection are those in force, which are finite and
in order from one on (`Settings.thresholds_of_valid`).  This is so because valid settings have finite numbers and their thresholds in order from zero on
(`Settings.validate_eq_ok_iff`).

**Main statement** (`process_outcomes`): the causes of every failure, and what the filter chain does
with valid settings, for every decoder, all bytes and all settings.
-/

namespace PenPlotter

open Numeric

namespace Mask

/-- A binary image is no mask only if it has no cells. -/
theorem ofGray_eq_error {g : Image.Gray} {d : Defect} (hbinary : g.IsBinary)
    (h : ofGray g = .error d) :
    (g.width = 0 ∨ g.height = 0) ∧ d = .zeroDimensions g.width g.height := by
  rw [ofGray_of_isBinary hbinary, ofCells] at h
  split at h
  case isTrue hwidth =>
    cases h
    exact ⟨.inl hwidth, rfl⟩
  case isFalse =>
    split at h
    case isTrue hheight =>
      cases h
      exact ⟨.inr hheight, rfl⟩
    case isFalse =>
      have hsize : (g.cells.map (· == 255)).size = g.width.toNat * g.height.toNat := by
        rw [Array.size_map, g.size_cells]
      rw [dif_pos hsize] at h
      cases h

end Mask

/-! ### What the filters ask for -/

namespace Settings

variable {s : Settings}

/-- Settings are valid if their numbers are finite and the thresholds are in order from zero on. -/
theorem validate_eq_ok_iff : s.validate = .ok () ↔
    (s.blurSigma.isFinite = true ∧ s.cannyLow.isFinite = true ∧ s.cannyHigh.isFinite = true) ∧
      0 ≤ s.cannyLow.key ∧ s.cannyLow.key ≤ s.cannyHigh.key := by
  have hzero : (Binary.zero : Single).isNaN = false := by decide
  have hkey : (Binary.zero : Single).key = 0 := by decide
  have hnumbers : s.numbers.find? (fun n => !n.2.isFinite) = none ↔
      s.blurSigma.isFinite = true ∧ s.cannyLow.isFinite = true ∧ s.cannyHigh.isFinite = true := by
    simp [numbers]
  have hvalid : s.validate = .ok () ↔ s.defect? = none := by
    rw [validate]
    cases s.defect? <;> simp
  rw [hvalid, defect?]
  split
  case h_1 hfind =>
    have hfinite := hnumbers.not.mp (by rw [hfind]; exact Option.some_ne_none _)
    simp only [reduceCtorEq, hfinite, false_and]
  case h_2 hfind =>
    obtain ⟨hsigma, hlow, hhigh⟩ := hnumbers.mp hfind
    have hlow' := Binary.isNaN_of_isFinite hlow
    have hhigh' := Binary.isNaN_of_isFinite hhigh
    simp only [Bool.or_eq_true, Binary.lt_iff hlow' hzero, Binary.lt_iff hhigh' hzero,
      Binary.lt_iff hhigh' hlow', hkey, hsigma, hlow, hhigh, true_and]
    split
    case isTrue => simp only [reduceCtorEq, false_iff]; omega
    case isFalse =>
      split
      case isTrue => simp only [reduceCtorEq, false_iff]; omega
      case isFalse => simp only [true_iff]; omega

/-- The filters are handed what they ask for, in the order of the chain. -/
structure Suits (s : Settings) (gray : Image.Gray) : Prop where
  /-- There is a blur if and only if its spread is positive. -/
  blurred : (s.filter gray).blurred =
    if (Binary.zero : Single).lt s.blurSigma then gray.gaussianBlur s.blurSigma.toMachine else gray
  /-- The edges are found by the thresholds in force. -/
  edges : (s.filter gray).edges = (s.filter gray).blurred.canny
    (Image.Gray.lowInForce s.cannyLow s.cannyHigh).toMachine
    (Image.Gray.highInForce s.cannyHigh).toMachine
  low : (Image.Gray.lowInForce s.cannyLow s.cannyHigh).isFinite = true
  high : (Image.Gray.highInForce s.cannyHigh).isFinite = true
  least : (Binary.ofNat 1 : Single).le (Image.Gray.lowInForce s.cannyLow s.cannyHigh) = true
  inOrder : (Image.Gray.lowInForce s.cannyLow s.cannyHigh).le
    (Image.Gray.highInForce s.cannyHigh) = true
  dilated : (s.filter gray).dilated = (s.filter gray).edges.dilate s.dilateIterations.toNat
  result : (s.filter gray).result =
    if s.invert then (s.filter gray).dilated.invert else (s.filter gray).dilated

/-- The thresholds in force are finite and in order from one on. -/
theorem thresholds_of_valid (h : s.validate = .ok ()) :
    (Image.Gray.lowInForce s.cannyLow s.cannyHigh).isFinite = true ∧
      (Image.Gray.highInForce s.cannyHigh).isFinite = true ∧
      (Binary.ofNat 1 : Single).le (Image.Gray.lowInForce s.cannyLow s.cannyHigh) = true ∧
      (Image.Gray.lowInForce s.cannyLow s.cannyHigh).le (Image.Gray.highInForce s.cannyHigh) =
        true := by
  obtain ⟨⟨-, hlow, hhigh⟩, -⟩ := validate_eq_ok_iff.mp h
  have hleast : Image.Gray.leastThreshold.isFinite = true := by decide
  have hraised := Binary.isFinite_larger hlow hleast
  have hhigh' : (Image.Gray.highInForce s.cannyHigh).isFinite = true :=
    Binary.isFinite_larger hhigh hleast
  have hlow' : (Image.Gray.lowInForce s.cannyLow s.cannyHigh).isFinite = true :=
    Binary.isFinite_smaller hraised hhigh'
  have hkey := Binary.key_smaller (Binary.isNaN_of_isFinite hraised)
    (Binary.isNaN_of_isFinite hhigh')
  have hkeyLow := Binary.key_larger (Binary.isNaN_of_isFinite hlow)
    (Binary.isNaN_of_isFinite hleast)
  have hkeyHigh := Binary.key_larger (Binary.isNaN_of_isFinite hhigh)
    (Binary.isNaN_of_isFinite hleast)
  refine ⟨hlow', hhigh', ?_, ?_⟩
  · refine (Binary.le_iff (Binary.isNaN_of_isFinite hleast) (Binary.isNaN_of_isFinite hlow')).mpr ?_
    rw [Image.Gray.lowInForce, hkey, hkeyLow, Image.Gray.highInForce, hkeyHigh]
    exact le_min (le_max_right _ _) (le_max_right _ _)
  · refine (Binary.le_iff (Binary.isNaN_of_isFinite hlow') (Binary.isNaN_of_isFinite hhigh')).mpr ?_
    rw [Image.Gray.lowInForce, hkey]
    exact min_le_right _ _

theorem suits_of_valid (h : s.validate = .ok ()) (gray : Image.Gray) : s.Suits gray := by
  obtain ⟨hlow, hhigh, hleast, horder⟩ := thresholds_of_valid h
  refine ⟨?_, rfl, hlow, hhigh, hleast, horder, rfl, s.result_filter gray⟩
  obtain ⟨⟨hsigma, -⟩, -⟩ := validate_eq_ok_iff.mp h
  have hzero : (Binary.zero : Single).isNaN = false := by decide
  have hsigma := Binary.isNaN_of_isFinite hsigma
  have hle := Binary.le_iff hsigma hzero
  have hlt := Binary.lt_iff hzero hsigma
  show (if s.blurSigma.le .zero then gray else gray.gaussianBlur s.blurSigma.toMachine) = _
  by_cases hpos : (Binary.zero : Single).key < s.blurSigma.key
  · rw [if_neg (hle.not.mpr (Int.not_le.mpr hpos)), if_pos (hlt.mpr hpos)]
  · rw [if_pos (hle.mpr (Int.not_lt.mp hpos)), if_neg (hlt.not.mpr hpos)]

/-- The filter chain makes a mask of every image with cells. -/
theorem exists_mask (s : Settings) (gray : Image.Gray) (hwidth : gray.width ≠ 0)
    (hheight : gray.height ≠ 0) : ∃ m, Mask.ofGray (s.filter gray).result = .ok m := by
  refine (Mask.exists_ofGray_eq_ok_iff (s.isBinary_result gray)).mpr ?_
  rw [(s.sides_result gray).1, (s.sides_result gray).2]
  exact ⟨hwidth, hheight⟩

/-- The mask is for a canvas as large as the image. -/
theorem dimensions_of_mask (s : Settings) {gray : Image.Gray} {m : Mask}
    (h : Mask.ofGray (s.filter gray).result = .ok m) :
    m.compile.dimensions = ⟨gray.width, gray.height⟩ := by
  obtain ⟨-, hwidth, hheight⟩ := Mask.inkCount_of_ofGray h
  rw [(s.sides_result gray).1] at hwidth
  rw [(s.sides_result gray).2] at hheight
  rw [Mask.compile, compileIslands, Mask.dimensions, hwidth, hheight]

end Settings

/-! ### The ways a photo comes out -/

/-- How a photo comes out. -/
inductive ComesTo (decoder : Image.Decoder) (bytes : ByteArray) (s : Settings) :
    Except PipelineError Program → Prop where
  | settings {d : SettingsDefect} :
      s.validate = .error d → ComesTo decoder bytes s (.error (.settings d))
  | empty : s.validate = .ok () → bytes.size = 0 →
      ComesTo decoder bytes s (.error (.image .empty))
  | undecodable {problem : String} : s.validate = .ok () → bytes.size ≠ 0 →
      decoder bytes = .error problem →
      ComesTo decoder bytes s (.error (.image (.undecodable problem)))
  | noCells {raster : Image.Raster} : s.validate = .ok () → bytes.size ≠ 0 →
      decoder bytes = .ok raster → raster.width = 0 ∨ raster.height = 0 →
      ComesTo decoder bytes s (.error (.mask (.zeroDimensions raster.width raster.height)))
  | program {raster : Image.Raster} {m : Mask} : s.validate = .ok () → bytes.size ≠ 0 →
      decoder bytes = .ok raster → raster.width ≠ 0 → raster.height ≠ 0 →
      Mask.ofGray (s.filter (raster.map Image.Color.luminance)).result = .ok m →
      ComesTo decoder bytes s (.ok m.compile)

section Process

variable {decoder : Image.Decoder} {bytes : ByteArray} {s : Settings}
  {r : Except PipelineError Program}

theorem comesTo_process : ComesTo decoder bytes s (process decoder bytes s) := by
  rw [process]
  cases hvalid : s.validate with
  | error d => exact .settings hvalid
  | ok _ =>
      rw [Image.decodeLuminance, Image.decode]
      by_cases hsize : bytes.size = 0
      · rw [if_pos hsize]
        exact .empty hvalid hsize
      · rw [if_neg hsize]
        cases hdecode : decoder bytes with
        | error problem => exact .undecodable hvalid hsize hdecode
        | ok raster =>
            have hbinary := s.isBinary_result (raster.map Image.Color.luminance)
            obtain ⟨hw, hh⟩ := s.sides_result (raster.map Image.Color.luminance)
            simp only [Except.mapError, Except.map, bind, Except.bind,
              Settings.edgeMask_of_valid hvalid]
            -- The sides of what the filter chain makes are those of the image.
            cases hmask : Mask.ofGray (s.filter (raster.map Image.Color.luminance)).result with
            | error d =>
                obtain ⟨hsides, rfl⟩ := Mask.ofGray_eq_error hbinary hmask
                rw [hw, hh] at hsides ⊢
                exact .noCells hvalid hsize hdecode hsides
            | ok m =>
                obtain ⟨hwidth, hheight⟩ :=
                  (Mask.exists_ofGray_eq_ok_iff hbinary).mp ⟨m, hmask⟩
                rw [hw] at hwidth
                rw [hh] at hheight
                exact .program hvalid hsize hdecode hwidth hheight hmask

/-- The ways exclude one another. -/
theorem ComesTo.unique {r' : Except PipelineError Program} (h : ComesTo decoder bytes s r)
    (h' : ComesTo decoder bytes s r') : r = r' := by
  cases h <;> cases h' <;> simp_all

theorem process_eq_iff : process decoder bytes s = r ↔ ComesTo decoder bytes s r :=
  ⟨fun h => h ▸ comesTo_process, fun h => comesTo_process.unique h⟩

end Process

/-- The causes of every outcome of a photo; each takes in that the ones before do not apply. -/
structure Outcomes (decoder : Image.Decoder) (bytes : ByteArray) (s : Settings) : Prop where
  settings : ∀ d, process decoder bytes s = .error (.settings d) ↔ s.validate = .error d
  empty : process decoder bytes s = .error (.image .empty) ↔
    s.validate = .ok () ∧ bytes.size = 0
  /-- The error is the one that the decoder gives. -/
  undecodable : ∀ problem, process decoder bytes s = .error (.image (.undecodable problem)) ↔
    s.validate = .ok () ∧ bytes.size ≠ 0 ∧ decoder bytes = .error problem
  /-- A mask is refused only because the image has no cells. -/
  mask : ∀ d, process decoder bytes s = .error (.mask d) ↔
    s.validate = .ok () ∧ bytes.size ≠ 0 ∧ ∃ raster, decoder bytes = .ok raster ∧
      (raster.width = 0 ∨ raster.height = 0) ∧ d = .zeroDimensions raster.width raster.height
  program : ∀ d, (∃ p, process decoder bytes s = .ok p ∧ p.dimensions = d) ↔
    s.validate = .ok () ∧ bytes.size ≠ 0 ∧ ∃ raster, decoder bytes = .ok raster ∧
      raster.width ≠ 0 ∧ raster.height ≠ 0 ∧ d = ⟨raster.width, raster.height⟩

/-- The filter chain makes a mask of the image. -/
structure Settings.Masks (s : Settings) (gray : Image.Gray) : Prop where
  edgeMask : s.edgeMask gray = .ok (s.filter gray).result
  width : (s.filter gray).result.width = gray.width
  height : (s.filter gray).result.height = gray.height
  binary : (s.filter gray).result.IsBinary
  mask : ∃ m, Mask.ofGray (s.filter gray).result = .ok m
  suits : s.Suits gray

theorem outcomes (decoder : Image.Decoder) (bytes : ByteArray) (s : Settings) :
    Outcomes decoder bytes s where
  settings d := by
    rw [process_eq_iff]
    constructor
    · rintro (h | _)
      exact h
    · exact .settings
  empty := by
    rw [process_eq_iff]
    constructor
    · rintro (_ | ⟨hvalid, hsize⟩)
      exact ⟨hvalid, hsize⟩
    · rintro ⟨hvalid, hsize⟩
      exact .empty hvalid hsize
  undecodable problem := by
    rw [process_eq_iff]
    constructor
    · rintro (_ | _ | ⟨hvalid, hsize, hdecode⟩)
      exact ⟨hvalid, hsize, hdecode⟩
    · rintro ⟨hvalid, hsize, hdecode⟩
      exact .undecodable hvalid hsize hdecode
  mask d := by
    rw [process_eq_iff]
    constructor
    · intro h
      cases h with
      | noCells hvalid hsize hdecode hsides => exact ⟨hvalid, hsize, _, hdecode, hsides, rfl⟩
    · rintro ⟨hvalid, hsize, raster, hdecode, hsides, rfl⟩
      exact .noCells hvalid hsize hdecode hsides
  program d := by
    constructor
    · rintro ⟨p, h, rfl⟩
      cases process_eq_iff.mp h with
      | program hvalid hsize hdecode hwidth hheight hmask =>
          exact ⟨hvalid, hsize, _, hdecode, hwidth, hheight, s.dimensions_of_mask hmask⟩
    · rintro ⟨hvalid, hsize, raster, hdecode, hwidth, hheight, rfl⟩
      obtain ⟨m, hmask⟩ :=
        s.exists_mask (raster.map Image.Color.luminance) hwidth hheight
      exact ⟨m.compile, process_eq_iff.mpr (.program hvalid hsize hdecode hwidth hheight hmask),
        s.dimensions_of_mask hmask⟩

/-- **How a photo comes out.**  Whatever the decoder is, `process` fails for the first of these
causes that applies, and for no other: the settings are not valid, whatever the bytes are; there are
no bytes; the decoder refuses them, and the error says why; the image has no cells.  Otherwise it
makes a program for a canvas as large as the image.

With valid settings the filter chain makes a mask of every gray image with cells: an image as large
that holds two levels only, by filters that are handed what they ask for. -/
theorem process_outcomes (decoder : Image.Decoder) (bytes : ByteArray) (s : Settings) :
    Outcomes decoder bytes s ∧ (s.validate = .ok () → ∀ gray : Image.Gray, gray.width ≠ 0 →
      gray.height ≠ 0 → s.Masks gray) :=
  ⟨outcomes decoder bytes s, fun hvalid gray hwidth hheight =>
    ⟨s.edgeMask_of_valid hvalid gray, (s.sides_result gray).1, (s.sides_result gray).2,
      s.isBinary_result gray, s.exists_mask gray hwidth hheight, s.suits_of_valid hvalid gray⟩⟩

/-- Three dark columns beside three lit ones. -/
def Image.Raster.twoTone : Image.Raster :=
  Image.Grid.tabulate 6 5 fun x _ => .gray (if x < 3 then 0 else 255)

/-- What is to be seen of them. -/
def Image.Gray.twoTone : Image.Gray := Image.Raster.twoTone.map Image.Color.luminance

/-- A low threshold below one, two dilations, and an inversion. -/
def Settings.fine : Settings where
  blurSigma := .ofDecimal false 8 (-1)
  cannyLow := .ofDecimal false 5 (-1)
  cannyHigh := .ofNat 90
  dilateIterations := 2
  invert := true

theorem process_outcomes_two_tone :
    Settings.fine.validate = .ok () ∧
      (∃ p, process (fun _ => .ok .twoTone) ⟨#[0]⟩ .fine = .ok p ∧ p.dimensions = ⟨6, 5⟩) ∧
      process (fun _ => .error "no picture") ⟨#[0]⟩ .fine =
        .error (.image (.undecodable "no picture")) ∧
      Settings.fine.Masks .twoTone ∧
      (Settings.fine.filter .twoTone).edges = (Settings.fine.filter .twoTone).blurred.canny
        (Binary.ofNat 1 : Single).toMachine (Binary.ofNat 90 : Single).toMachine := by
  have hvalid : Settings.fine.validate = .ok () := by decide
  have hlow : Image.Gray.lowInForce Settings.fine.cannyLow Settings.fine.cannyHigh = .ofNat 1 := by
    decide
  have hhigh : Image.Gray.highInForce Settings.fine.cannyHigh = .ofNat 90 := by decide
  obtain ⟨hmade, hmasks⟩ := process_outcomes (fun _ => .ok .twoTone) ⟨#[0]⟩ .fine
  obtain ⟨hrefused, -⟩ := process_outcomes (fun _ => .error "no picture") ⟨#[0]⟩ .fine
  have hgray := hmasks hvalid .twoTone (by decide) (by decide)
  refine ⟨hvalid, (hmade.program ⟨6, 5⟩).mpr ?_, (hrefused.undecodable _).mpr ?_, hgray, ?_⟩
  · exact ⟨hvalid, by decide, _, rfl, by decide, by decide, rfl⟩
  · exact ⟨hvalid, by decide, rfl⟩
  · rw [hgray.suits.edges, hlow, hhigh]

end PenPlotter
