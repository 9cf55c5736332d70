import PenPlotter.Image.Canny
import PenPlotter.Image.Dilation
import PenPlotter.Settings

/-!
# The filter chain

A gray image becomes a mask image in four steps: blur, edge detection, dilation, and, if the
settings ask for it, inversion.  The blur is left out unless its spread is positive.  The
thresholds of the edge detection are raised to at least one, since with a threshold of zero every
cell with any gradient would be an edge, and the low one is lowered to the high one.

The steps are *stages*, and a `Staging` says how a stage is carried out: `Staging.plain` carries it
out and does nothing else.  `Filtered` keeps the image after each step; whatever the settings, the
last of them is binary and as large as the first (`isBinary_result`, `sides_result`).
-/

namespace PenPlotter

open Numeric

namespace Image.Gray

/-- Blur, if the spread is positive. -/
def blur (g : Gray) (sigma : Single) : Gray :=
  if sigma.le .zero then g else g.gaussianBlur sigma.toMachine

theorem sides_blur (g : Gray) (sigma : Single) :
    (g.blur sigma).width = g.width ∧ (g.blur sigma).height = g.height := by
  unfold blur
  split
  · exact ⟨rfl, rfl⟩
  · exact g.sides_gaussianBlur _

/-- The least threshold of the edge detection. -/
def leastThreshold : Single := .ofNat 1

/-- The high threshold in force. -/
def highInForce (high : Single) : Single := high.larger leastThreshold

/-- The low threshold in force. -/
def lowInForce (low high : Single) : Single :=
  (low.larger leastThreshold).smaller (highInForce high)

/-- The edges of an image by the thresholds in force. -/
def edges (g : Gray) (low high : Single) : Gray :=
  g.canny (lowInForce low high).toMachine (highInForce high).toMachine

end Image.Gray

/-- How the stages of a run are carried out.  A stage is some work, and its value is wanted. -/
structure Staging (m : Type → Type) where
  carry {α : Type} (work : Unit → α) : m α

/-- Stages are carried out, and nothing else is done. -/
def Staging.plain {m : Type → Type} [Monad m] : Staging m := ⟨fun work => pure (work ())⟩

/-- The image after each step of the filter chain. -/
structure Filtered where
  blurred : Image.Gray
  edges : Image.Gray
  dilated : Image.Gray
  /-- The inverted image, if the settings ask for it. -/
  inverted : Option Image.Gray

namespace Filtered

/-- The image after the last step. -/
def result (f : Filtered) : Image.Gray := f.inverted.getD f.dilated

end Filtered

namespace Settings

section Stages

variable {m : Type → Type} [Monad m]

/-- The stage of inversion; there is none unless the settings ask for it. -/
def invertBy (g : Staging m) (s : Settings) (dilated : Image.Gray) : m (Option Image.Gray) :=
  if s.invert then some <$> g.carry fun _ => dilated.invert else pure none

/-- Run the filter chain stage by stage. -/
def filterBy (g : Staging m) (s : Settings) (gray : Image.Gray) : m Filtered := do
  let blurred ← g.carry fun _ => gray.blur s.blurSigma
  let edges ← g.carry fun _ => blurred.edges s.cannyLow s.cannyHigh
  let dilated ← g.carry fun _ => edges.dilate s.dilateIterations.toNat
  let inverted ← s.invertBy g dilated
  return ⟨blurred, edges, dilated, inverted⟩

end Stages

/-- Run the filter chain. -/
def filter (s : Settings) (gray : Image.Gray) : Filtered := (s.filterBy (m := Id) .plain gray).run

/-- The mask image of a gray image, if the settings are valid. -/
def edgeMask (s : Settings) (gray : Image.Gray) : Except SettingsDefect Image.Gray := do
  s.validate
  return (s.filter gray).result

theorem inverted_filter (s : Settings) (gray : Image.Gray) :
    (s.filter gray).inverted =
      if s.invert then some (s.filter gray).dilated.invert else none := rfl

/-- The last image is the dilated one, inverted if the settings ask for it. -/
theorem result_filter (s : Settings) (gray : Image.Gray) :
    (s.filter gray).result
      = if s.invert then (s.filter gray).dilated.invert else (s.filter gray).dilated := by
  rw [Filtered.result, inverted_filter]
  split <;> rfl

theorem isBinary_dilated (s : Settings) (gray : Image.Gray) :
    (s.filter gray).dilated.IsBinary :=
  Image.Gray.isBinary_dilate (Image.Gray.isBinary_canny _ _ _) _

theorem isBinary_result (s : Settings) (gray : Image.Gray) :
    (s.filter gray).result.IsBinary := by
  rw [result_filter]
  split
  · exact Image.Gray.isBinary_invert (s.isBinary_dilated gray)
  · exact s.isBinary_dilated gray

theorem sides_dilated (s : Settings) (gray : Image.Gray) :
    (s.filter gray).dilated.width = gray.width ∧ (s.filter gray).dilated.height = gray.height := by
  show ((gray.blur s.blurSigma).edges _ _ |>.dilate _).width = _ ∧
    ((gray.blur s.blurSigma).edges _ _ |>.dilate _).height = _
  simp only [Image.Gray.sides_dilate, Image.Gray.edges, Image.Gray.sides_canny,
    Image.Gray.sides_blur, and_self]

theorem sides_result (s : Settings) (gray : Image.Gray) :
    (s.filter gray).result.width = gray.width ∧ (s.filter gray).result.height = gray.height := by
  rw [result_filter]
  split <;> exact s.sides_dilated gray

end Settings

end PenPlotter
