import PenPlotter.Diagnostics

/-!
# The report of a run

The report is a table with a line for each stage: its name, how long it took, its share of the
whole run, and what came out of it.  Times are in milliseconds with three places and shares are
percentages with one; a run that took no time has no shares.  Columns are padded with blanks and
never cut.
-/

namespace PenPlotter

open Numeric

/-- A text with blanks behind it up to a width. -/
def padRight (width : Nat) (s : String) : String :=
  s ++ String.ofList (List.replicate (width - s.length) ' ')

/-- A text with blanks before it up to a width. -/
def padLeft (width : Nat) (s : String) : String :=
  String.ofList (List.replicate (width - s.length) ' ') ++ s

/-- What came out of a stage, in words. -/
def StageMetrics.details : StageMetrics → String
  | decode m =>
    decimal m.inputBytes ++ " bytes -> " ++ decimal m.width.toNat ++ "x"
      ++ decimal m.height.toNat
  | blur sigma => "sigma=" ++ sigma.fixed 2
  | edgeDetection m =>
    "low=" ++ m.low.fixed 1 ++ " high=" ++ m.high.fixed 1 ++ " edges=" ++ decimal m.edgePixels
  | dilate m => "x" ++ decimal m.iterations.toNat ++ " lit=" ++ decimal m.litPixels
  | invert litPixels => "lit=" ++ decimal litPixels
  | mask m => decimal m.inkedPixels ++ "/" ++ decimal m.cells ++ " foreground"
  | islandExtraction m =>
    decimal m.count ++ " islands (min=" ++ decimal m.smallest ++ " max=" ++ decimal m.largest
      ++ " mean=" ++ m.mean.fixed 1 ++ ")"
  | assembly m =>
    decimal m.commands ++ " cmds: " ++ decimal m.counts.moves ++ " moves, "
      ++ decimal m.counts.rotations ++ " turns, " ++ decimal m.counts.penUps ++ " pen-ups"

/-- The share of a duration in the whole, as a percentage. -/
def share (part whole : Duration) : Double :=
  if Binary.lt .zero whole.milliseconds then
    (part.milliseconds.dividedBy whole.milliseconds).times (.ofNat 100)
  else .zero

namespace Diagnostics

/-- The stages with their names, in the order they ran. -/
def stages (d : Diagnostics) : List (String × Stage) :=
  [("Decode", d.decode), ("Blur", d.blur), ("Edge Detection", d.edgeDetection),
    ("Dilate", d.dilate)]
  ++ (d.invert.map fun s => ("Invert", s)).toList
  ++ [("Mask", d.mask), ("Islands", d.islandExtraction), ("Assembly", d.assembly)]

/-- The line of a stage. -/
def row (d : Diagnostics) (name : String) (s : Stage) : String :=
  padRight 20 name ++ " " ++ padLeft 8 (s.duration.milliseconds.fixed 3) ++ "ms "
    ++ padLeft 9 ((share s.duration d.total).fixed 1) ++ "%  " ++ s.metrics.details

/-- The report as a text of several lines. -/
def report (d : Diagnostics) : String :=
  let rule (c : Char) (width : Nat) : String := String.ofList (List.replicate width c)
  let head :=
    ["Pipeline Diagnostics Report", rule '=' 60,
      "Canvas: " ++ decimal d.summary.width.toNat ++ "x" ++ decimal d.summary.height.toNat,
      "Total duration: " ++ d.total.milliseconds.fixed 3 ++ "ms", "",
      padRight 20 "Stage" ++ " " ++ padLeft 10 "Duration" ++ " " ++ padLeft 10 "% Total"
        ++ "  Details",
      rule '-' 80]
  let foot :=
    ["", "Islands: " ++ decimal d.summary.islands ++ "  |  Commands: "
      ++ decimal d.summary.commands]
  "\n".intercalate (head ++ d.stages.map (fun (name, s) => d.row name s) ++ foot)

end Diagnostics

end PenPlotter
