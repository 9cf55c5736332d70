import PenPlotter.Json.Codec

/-!
# Settings of the filter chain

The settings say how a photo is turned into a mask: the spread of a blur, the two thresholds of
the edge detection, how often the edges are dilated, and whether the result is inverted.

Settings are valid when the three numbers are finite, the thresholds are not negative, and the low
threshold is not above the high one.  `Settings.defect?` names the first of these conditions that
fails.
-/

namespace PenPlotter

open Numeric

/-- How a photo is turned into a mask. -/
structure Settings where
  /-- The spread of the blur; none is done unless it is positive. -/
  blurSigma : Single
  cannyLow : Single
  cannyHigh : Single
  /-- How often the edges are dilated. -/
  dilateIterations : UInt32
  /-- Whether what lies between the edges is drawn instead of the edges. -/
  invert : Bool
  deriving DecidableEq, Repr

/-- Why settings are not valid. -/
inductive SettingsDefect where
  /-- A number is not finite. -/
  | notFinite (name : String) (value : Single)
  /-- A threshold is negative. -/
  | negativeThreshold (low high : Single)
  /-- The low threshold is above the high one. -/
  | lowAboveHigh (low high : Single)
  deriving DecidableEq, Repr

/-- The wording of a defect. -/
def SettingsDefect.message : SettingsDefect → String
  | notFinite name value => name ++ " must be finite, got " ++ value.written messageStyle
  | negativeThreshold low high =>
    "canny thresholds must be non-negative, got " ++ low.written messageStyle ++ ".."
      ++ high.written messageStyle
  | lowAboveHigh low high =>
    "canny_low (" ++ low.written messageStyle ++ ") exceeds canny_high ("
      ++ high.written messageStyle ++ ")"

namespace Settings

/-- A blur of spread 1.1, thresholds 50 and 150, and one dilation. -/
def standard : Settings where
  blurSigma := .ofDecimal false 11 (-1)
  cannyLow := .ofNat 50
  cannyHigh := .ofNat 150
  dilateIterations := 1
  invert := false

/-- The numbers of the settings with their names. -/
def numbers (s : Settings) : List (String × Single) :=
  [("blur_sigma", s.blurSigma), ("canny_low", s.cannyLow), ("canny_high", s.cannyHigh)]

/-- The first condition that the settings fail. -/
def defect? (s : Settings) : Option SettingsDefect :=
  match s.numbers.find? fun n => !n.2.isFinite with
  | some (name, value) => some (.notFinite name value)
  | none =>
    if s.cannyLow.lt .zero || s.cannyHigh.lt .zero then
      some (.negativeThreshold s.cannyLow s.cannyHigh)
    else if s.cannyHigh.lt s.cannyLow then some (.lowAboveHigh s.cannyLow s.cannyHigh)
    else none

/-- Check the settings. -/
def validate (s : Settings) : Except SettingsDefect Unit :=
  match s.defect? with
  | some d => .error d
  | none => .ok ()

/-- A field that has its standard value when it is left out. -/
def field {β : Type} (name : String) (decode : Json.Decoder β) (set : β → Settings → Settings) :
    Json.Field Settings :=
  { Json.Field.required name decode set with presence := .defaulted }

/-- How settings are written and read; fields left out have their standard values. -/
def codec : Json.Codec Settings where
  encode := fun s => .object
    [("blur_sigma", .single s.blurSigma), ("canny_low", .single s.cannyLow),
      ("canny_high", .single s.cannyHigh), ("dilate_iterations", .word s.dilateIterations),
      ("invert", .bool s.invert)]
  decode := Json.decodeStruct "struct PipelineConfig"
    [field "blur_sigma" Json.decodeSingle fun blurSigma s => { s with blurSigma },
      field "canny_low" Json.decodeSingle fun cannyLow s => { s with cannyLow },
      field "canny_high" Json.decodeSingle fun cannyHigh s => { s with cannyHigh },
      field "dilate_iterations" Json.decodeWord fun dilateIterations s =>
        { s with dilateIterations },
      field "invert" Json.decodeBool fun invert s => { s with invert }] standard

end Settings

end PenPlotter
