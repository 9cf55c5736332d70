import Mathlib.Algebra.Group.Action.Defs
import Mathlib.Algebra.Order.BigOperators.Group.List
import Mathlib.Algebra.Order.Group.Nat
import PenPlotter.Diagnostics
import PenPlotter.Proofs.Grammar
import PenPlotter.Proofs.LitCells
import PenPlotter.Proofs.Travel

/-!
# Diagnostics tell what happened

A diagnosed run goes through the stages once (`runStages_eq`) and reports on them; the plain run is
the same with the report left out (`process_eq`, `processDiagnosed_eq`).  `RunMetrics` are the metrics of all
stages together, and `Diagnostics.Tells` says that diagnostics hold them, each at its stage.

What the metrics have to do with one another comes from what the stages do (`Run.Made`): a dilation
puts out no cell, an inversion exchanges the cells that are lit and those that are not, a mask inks
the cells that are lit, its islands divide the inked pixels among them (`sum_size_islands`), and its
program is a word of the grammar of drawings.

**Main statement** (`processDiagnosed_agrees`): a diagnosed run fails as the plain one does, or makes
the same program, and then its metrics agree with the program and with one another
(`RunMetrics.Agree`); it makes one whenever there is something to draw on (`exists_runStages_iff`).
-/

namespace PenPlotter

open Numeric

/-! ### The metrics of a run -/

/-- The metrics of all stages of a run. -/
structure RunMetrics where
  decode : DecodeMetrics
  sigma : Single
  edges : EdgeMetrics
  dilated : DilateMetrics
  /-- How many cells are lit after the inversion, if there is one. -/
  inverted : Option Nat
  mask : MaskMetrics
  islands : IslandMetrics
  assembly : AssemblyMetrics

/-- The diagnostics hold these metrics, each at its stage. -/
structure Diagnostics.Tells (d : Diagnostics) (t : RunMetrics) : Prop where
  decode : d.decode.metrics = .decode t.decode
  blur : d.blur.metrics = .blur t.sigma
  edgeDetection : d.edgeDetection.metrics = .edgeDetection t.edges
  dilate : d.dilate.metrics = .dilate t.dilated
  invert : d.invert.map Stage.metrics = t.inverted.map .invert
  mask : d.mask.metrics = .mask t.mask
  islandExtraction : d.islandExtraction.metrics = .islandExtraction t.islands
  assembly : d.assembly.metrics = .assembly t.assembly

/-- The metrics of a run with these settings agree with its program, with its summary, and with one
another. -/
structure RunMetrics.Agree (t : RunMetrics) (s : Settings) (p : Program) (summary : Summary) :
    Prop where
  decoded : p.dimensions = ⟨t.decode.width, t.decode.height⟩
  summarized : p.dimensions = ⟨summary.width, summary.height⟩
  cells : t.mask.cells = t.decode.width.toNat * t.decode.height.toNat
  /-- A dilation puts out no cell. -/
  dilated : t.edges.edgePixels ≤ t.dilated.litPixels
  undilated : s.dilateIterations = 0 → t.edges.edgePixels = t.dilated.litPixels
  /-- An inversion lights the cells that were dark, and these are inked. -/
  inverted : s.invert = true →
    t.inverted = some t.mask.inkedPixels ∧ t.mask.inkedPixels + t.dilated.litPixels = t.mask.cells
  upright : s.invert = false → t.inverted = none ∧ t.mask.inkedPixels = t.dilated.litPixels
  smallest : t.islands.count * t.islands.smallest ≤ t.mask.inkedPixels
  largest : t.mask.inkedPixels ≤ t.islands.count * t.islands.largest
  blank : t.islands.count = 0 ↔ t.mask.inkedPixels = 0
  islands : t.islands.count = summary.islands
  counts : t.assembly.counts = p.counts
  penUps : t.assembly.counts.penUps = t.islands.count
  penDowns : t.assembly.counts.penDowns = t.islands.count
  commands : t.assembly.commands = p.commands.length
  tallied : t.assembly.commands = t.assembly.counts.penUps + t.assembly.counts.penDowns +
    t.assembly.counts.rotations + t.assembly.counts.moves
  summarizedCommands : t.assembly.commands = summary.commands
  travel : t.assembly.counts.travelUnits = t.assembly.counts.moves
  /-- All inked pixels but one of each island cost a step. -/
  steps : t.mask.inkedPixels ≤ t.islands.count + t.assembly.counts.travelUnits

/-- The metrics of a run. -/
def Run.metrics (r : Run) (inputBytes : Nat) (s : Settings) : RunMetrics where
  decode := ⟨inputBytes, r.gray.width, r.gray.height⟩
  sigma := s.blurSigma
  edges := ⟨Image.Gray.lowInForce s.cannyLow s.cannyHigh, Image.Gray.highInForce s.cannyHigh,
    r.filtered.edges.litCount⟩
  dilated := ⟨s.dilateIterations, r.filtered.dilated.litCount⟩
  inverted := r.filtered.inverted.map Image.Gray.litCount
  mask := ⟨r.mask.inkCount, r.mask.width.toNat * r.mask.height.toNat⟩
  islands := .ofIslands r.islands
  assembly := ⟨r.program.counts, r.program.commands.length⟩

theorem Run.tells_diagnose (r : Run) (inputBytes : Nat) (s : Settings) (clock : Clock) :
    (r.diagnose inputBytes s clock).Tells (r.metrics inputBytes s) where
  decode := rfl
  blur := rfl
  edgeDetection := rfl
  dilate := rfl
  invert := by
    rw [diagnose, metrics, Option.map_map, Option.map_map]
    rfl
  mask := rfl
  islandExtraction := rfl
  assembly := rfl

/-! ### The stages of a run -/

/-- What the stages of a run make of its image. -/
structure Run.Made (r : Run) (s : Settings) : Prop where
  filtered : r.filtered = s.filter r.gray
  mask : Mask.ofGray r.filtered.result = .ok r.mask
  islands : r.islands = r.mask.islands
  program : r.program = r.mask.compile

section Runs

variable {decoder : Image.Decoder} {bytes : ByteArray} {s : Settings}

/-- The filter chain checks the settings once more; they are valid by then. -/
theorem Settings.edgeMask_of_valid (h : s.validate = .ok ()) (gray : Image.Gray) :
    s.edgeMask gray = .ok (s.filter gray).result := by
  rw [edgeMask, h]
  rfl

/-- The stages of a run, with nothing said about how they are carried out. -/
theorem runStages_eq : runStages decoder bytes s = (do
    s.validate.mapError PipelineError.settings
    let gray ← (Image.decodeLuminance decoder bytes).mapError PipelineError.image
    let mask ← (Mask.ofGray (s.filter gray).result).mapError PipelineError.mask
    return ⟨gray, s.filter gray, mask, mask.islands, mask.compile⟩) := by
  have hfilter (gray : Image.Gray) :
      (s.filterBy .plain gray : Except PipelineError Filtered) = .ok (s.filter gray) := by
    simp only [Settings.filter, Settings.filterBy, Settings.invertBy]
    cases s.invert <;> rfl
  simp only [runStages, runBy, hfilter]
  rfl

/-- The plain run goes through the same stages. -/
theorem process_eq : process decoder bytes s = (runStages decoder bytes s).map Run.program := by
  rw [process, runStages_eq]
  cases hvalid : s.validate with
  | error defect => rfl
  | ok _ =>
      cases Image.decodeLuminance decoder bytes with
      | error e => rfl
      | ok gray =>
          simp only [Except.mapError, bind, Except.bind, Settings.edgeMask_of_valid hvalid]
          cases Mask.ofGray (s.filter gray).result with
          | error defect => rfl
          | ok mask => rfl

theorem processDiagnosed_eq (clock : Clock) :
    processDiagnosed decoder bytes s clock =
      (runStages decoder bytes s).map fun r => (r.program, r.diagnose bytes.size s clock) := by
  rw [processDiagnosed, diagnosedRun]
  cases runStages decoder bytes s <;> rfl

/-- A stage whose errors are wrapped lets a run succeed only if it succeeds itself. -/
theorem bind_mapError_eq_ok {ε ε' α β : Type} {x : Except ε α} {f : ε → ε'}
    {g : α → Except ε' β} {b : β} :
    (x.mapError f >>= g) = .ok b ↔ ∃ a, x = .ok a ∧ g a = .ok b := by
  cases x <;> simp [Except.mapError, bind, Except.bind]

theorem made_of_runStages {r : Run} (h : runStages decoder bytes s = .ok r) : r.Made s := by
  simp only [runStages_eq, bind_mapError_eq_ok] at h
  obtain ⟨_, -, gray, -, mask, hmask, hr⟩ := h
  cases hr
  exact ⟨rfl, hmask, rfl, rfl⟩

/-- A run succeeds if and only if the settings are valid and the bytes are an image with cells: what
the filter chain makes of it is binary. -/
theorem exists_runStages_iff :
    (∃ r, runStages decoder bytes s = .ok r) ↔
      s.validate = .ok () ∧ ∃ gray, Image.decodeLuminance decoder bytes = .ok gray ∧
        gray.width ≠ 0 ∧ gray.height ≠ 0 := by
  simp only [runStages_eq, bind_mapError_eq_ok]
  constructor
  · rintro ⟨r, _, hvalid, gray, hgray, mask, hmask, -⟩
    have hsides := (Mask.exists_ofGray_eq_ok_iff (s.isBinary_result gray)).mp ⟨mask, hmask⟩
    rw [(s.sides_result gray).1, (s.sides_result gray).2] at hsides
    exact ⟨hvalid, gray, hgray, hsides⟩
  · rintro ⟨hvalid, gray, hgray, hsides⟩
    rw [← (s.sides_result gray).1, ← (s.sides_result gray).2] at hsides
    obtain ⟨mask, hmask⟩ := (Mask.exists_ofGray_eq_ok_iff (s.isBinary_result gray)).mpr hsides
    exact ⟨_, (), hvalid, gray, hgray, mask, hmask, rfl⟩

end Runs

/-! ### Islands and their sizes -/

/-- The smallest and the largest size times the number of islands bound the sum of the sizes. -/
theorem IslandMetrics.ofIslands_bounds (islands : List Island) :
    (ofIslands islands).count = islands.length ∧
      islands.length * (ofIslands islands).smallest ≤ (islands.map Island.size).sum ∧
      (islands.map Island.size).sum ≤ islands.length * (ofIslands islands).largest := by
  cases islands with
  | nil => exact ⟨rfl, Nat.le_refl _, Nat.le_refl _⟩
  | cons i islands =>
      have hmin : ((i :: islands).map Island.size).min? =
          some (ofIslands (i :: islands)).smallest := List.min?_cons'
      have hmax : ((i :: islands).map Island.size).max? =
          some (ofIslands (i :: islands)).largest := List.max?_cons'
      have hlower := List.card_nsmul_le_sum _ _ (List.min?_eq_some_iff.mp hmin).2
      have hupper := List.sum_le_card_nsmul _ _ (List.max?_eq_some_iff.mp hmax).2
      rw [List.length_map, smul_eq_mul] at hlower hupper
      exact ⟨rfl, hlower, hupper⟩

/-- The islands of a mask divide its inked pixels among them. -/
theorem Mask.sum_size_islands (m : Mask) : (m.islands.map Island.size).sum = m.inkCount := by
  have hlength := m.flatMap_islands_perm.length_eq
  rwa [List.length_flatMap, length_inked] at hlength

/-- A mask has no islands if and only if it inks no cell. -/
theorem Mask.islands_eq_nil_iff_inkCount {m : Mask} : m.islands = [] ↔ m.inkCount = 0 := by
  rw [islands_eq_nil_iff, ← length_inked, List.length_eq_zero_iff, List.eq_nil_iff_forall_not_mem]
  simp only [mem_inked, Bool.not_eq_true]

/-! ### The stages agree -/

namespace Settings

variable {s : Settings}

theorem result_filter_of_upright (h : s.invert = false) (gray : Image.Gray) :
    (s.filter gray).inverted = none ∧ (s.filter gray).result = (s.filter gray).dilated := by
  simp [inverted_filter, result_filter, h]

theorem result_filter_of_invert (h : s.invert = true) (gray : Image.Gray) :
    (s.filter gray).inverted = some (s.filter gray).result ∧
      (s.filter gray).result = (s.filter gray).dilated.invert := by
  simp [inverted_filter, result_filter, h]

/-- With the inversion every cell is lit once, before it or after it. -/
theorem litCount_result_of_invert (h : s.invert = true) (gray : Image.Gray) :
    (s.filter gray).result.litCount + (s.filter gray).dilated.litCount =
      gray.width.toNat * gray.height.toNat := by
  rw [(result_filter_of_invert h gray).2, Image.Gray.litCount_invert (s.isBinary_dilated gray),
    (s.sides_dilated gray).1, (s.sides_dilated gray).2]

/-- The dilation of the filter chain puts out no cell. -/
theorem litCount_edges_le (s : Settings) (gray : Image.Gray) :
    (s.filter gray).edges.litCount ≤ (s.filter gray).dilated.litCount :=
  Image.Gray.litCount_le_dilate _ _

theorem dilated_of_zero (h : s.dilateIterations = 0) (gray : Image.Gray) :
    (s.filter gray).dilated = (s.filter gray).edges := by
  show (s.filter gray).edges.dilate s.dilateIterations.toNat = _
  rw [h]
  rfl

end Settings

/-- The metrics of a run agree with one another, since every stage does what it does. -/
theorem Run.Made.agree {r : Run} {s : Settings} (h : r.Made s) (inputBytes : Nat) (clock : Clock) :
    (r.metrics inputBytes s).Agree s r.program (r.diagnose inputBytes s clock).summary := by
  obtain ⟨gray, filtered, mask, islands, program⟩ := r
  obtain ⟨hfiltered, hmask, hislands, hprogram⟩ := h
  dsimp only at hfiltered hmask hislands hprogram
  subst hfiltered hislands hprogram
  obtain ⟨hink, hwidth, hheight⟩ := Mask.inkCount_of_ofGray hmask
  rw [(s.sides_result gray).1] at hwidth
  rw [(s.sides_result gray).2] at hheight
  have hcells : mask.width.toNat * mask.height.toNat = gray.width.toNat * gray.height.toNat := by
    rw [hwidth, hheight]
  have hdimensions : mask.compile.dimensions = ⟨gray.width, gray.height⟩ := by
    rw [← hwidth, ← hheight]
    rfl
  obtain ⟨hcount, hsmallest, hlargest⟩ := IslandMetrics.ofIslands_bounds mask.islands
  rw [mask.sum_size_islands] at hsmallest hlargest
  obtain ⟨hups, hdowns, -, hmoves, htravel⟩ := mask.drawings_compile.counts
  refine
    { decoded := hdimensions
      summarized := rfl
      cells := hcells
      dilated := s.litCount_edges_le gray
      undilated := ?undilated
      inverted := ?inverted
      upright := ?upright
      smallest := ?smallest
      largest := ?largest
      blank := ?blank
      islands := hcount
      counts := rfl
      penUps := hups.trans hcount.symm
      penDowns := hdowns.trans hcount.symm
      commands := rfl
      tallied := CommandCounts.length_eq _
      summarizedCommands := rfl
      travel := htravel.trans hmoves.symm
      steps := ?steps } <;> simp only [Run.metrics, hcount]
  case undilated =>
    intro hzero
    rw [Settings.dilated_of_zero hzero]
  case inverted =>
    intro hinvert
    obtain ⟨hsome, -⟩ := Settings.result_filter_of_invert hinvert gray
    rw [hsome, hink, hcells]
    exact ⟨rfl, Settings.litCount_result_of_invert hinvert gray⟩
  case upright =>
    intro hupright
    obtain ⟨hnone, hresult⟩ := Settings.result_filter_of_upright hupright gray
    rw [hnone, hink, hresult]
    exact ⟨rfl, rfl⟩
  case smallest => exact hsmallest
  case largest => exact hlargest
  case blank => rw [List.length_eq_zero_iff, Mask.islands_eq_nil_iff_inkCount]
  case steps =>
    rw [Program.counts, htravel]
    exact mask.inkCount_le_wayLength

/-- **Diagnostics tell what happened.**  A diagnosed run fails with the error of the plain one, or
makes the same program, whatever the clock says.  Then its diagnostics hold metrics, each at its
stage, that agree with the program, with the summary and with one another.  Both runs succeed if and
only if the settings are valid and the bytes are an image with cells. -/
theorem processDiagnosed_agrees (decoder : Image.Decoder) (bytes : ByteArray) (s : Settings)
    (clock : Clock) :
    ((∃ e, process decoder bytes s = .error e ∧
        processDiagnosed decoder bytes s clock = .error e) ∨
      ∃ p d t, process decoder bytes s = .ok p ∧
        processDiagnosed decoder bytes s clock = .ok (p, d) ∧ d.Tells t ∧
        t.Agree s p d.summary) ∧
    ((∃ p, process decoder bytes s = .ok p) ↔
      s.validate = .ok () ∧ ∃ gray, Image.decodeLuminance decoder bytes = .ok gray ∧
        gray.width ≠ 0 ∧ gray.height ≠ 0) := by
  rw [← exists_runStages_iff, process_eq, processDiagnosed_eq]
  cases hrun : runStages decoder bytes s with
  | error e => exact ⟨.inl ⟨e, rfl, rfl⟩, by simp [Except.map]⟩
  | ok r =>
      have hmade := made_of_runStages hrun
      refine ⟨.inr ⟨r.program, r.diagnose bytes.size s clock, r.metrics bytes.size s, rfl, rfl,
        r.tells_diagnose bytes.size s clock, hmade.agree bytes.size clock⟩, ?_⟩
      exact ⟨fun _ => ⟨r, rfl⟩, fun _ => ⟨r.program, rfl⟩⟩

end PenPlotter
