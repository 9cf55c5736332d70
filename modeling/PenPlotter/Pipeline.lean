import PenPlotter.Drawing
import PenPlotter.Image.Color
import PenPlotter.Image.Filter

/-!
# From images to programs

`process` makes a program from an encoded photo: it checks the settings, decodes the image, runs
the filter chain and compiles the mask.  `processMask` makes one from an image that is a mask
already, by a threshold on its red channel.  A run fails at the first step that does; there is no
partial program.
-/

namespace PenPlotter

/-- Why an image gives no program. -/
inductive PipelineError where
  | settings (defect : SettingsDefect)
  | image (error : Image.DecodeError)
  | mask (defect : Mask.Defect)
  deriving DecidableEq, Repr

/-- The wording of an error. -/
def PipelineError.message : PipelineError → String
  | settings defect => "invalid pipeline configuration: " ++ defect.message
  | image .empty => "input image data is empty"
  | image (.undecodable problem) => "failed to decode image: " ++ problem
  | mask defect => defect.message

/-- The program of an encoded photo. -/
def process (decoder : Image.Decoder) (bytes : ByteArray) (s : Settings) :
    Except PipelineError Program := do
  s.validate.mapError .settings
  let gray ← (Image.decodeLuminance decoder bytes).mapError .image
  let edges ← (s.edgeMask gray).mapError .settings
  let mask ← (Mask.ofGray edges).mapError .mask
  return mask.compile

/-- The mask that an encoded image shows: cells whose red level is at least `level` are inked. -/
def decodeMask (decoder : Image.Decoder) (bytes : ByteArray) (level : UInt8) :
    Except PipelineError Mask := do
  let red ← (Image.decodeRed decoder bytes).mapError .image
  (Mask.ofThreshold red level).mapError .mask

/-- The program of an encoded mask. -/
def processMask (decoder : Image.Decoder) (bytes : ByteArray) (level : UInt8) :
    Except PipelineError Program :=
  (decodeMask decoder bytes level).map Mask.compile

end PenPlotter
