import PenPlotter.CommandLine.FileTree
import PenPlotter.Diagnostics
import PenPlotter.Replay
import PenPlotter.Text.Terminal

/-!
# Events

A run logs what it does as events.  Every event has a level, comes from a part of the program, and
consists of a message and of fields, each with a name and a value.  What a compilation logs
follows from the islands of its mask and from their tour.
-/

namespace PenPlotter.CommandLine

/-- How pressing an event is, the most pressing first. -/
inductive Level where
  | error
  | warn
  | info
  | debug
  | trace
  deriving DecidableEq, Repr

namespace Level

/-- The place of a level in the order. -/
def rank : Level → Nat
  | error => 0
  | warn => 1
  | info => 2
  | debug => 3
  | trace => 4

/-- The name of a level. -/
def name : Level → String
  | error => "ERROR"
  | warn => "WARN"
  | info => "INFO"
  | debug => "DEBUG"
  | trace => "TRACE"

end Level

/-- Why a run fails. -/
inductive Failure where
  | unreadable (path : String) (fault : FileFault)
  | badSettings (problem : Json.Problem)
  | pipeline (error : PipelineError)
  | picture (error : ReplayError)
  | unwritable (path : String) (fault : FileFault)
  deriving DecidableEq, Repr

/-- The wording of a failure. -/
def Failure.message : Failure → String
  | unreadable path fault => "cannot read " ++ path ++ ": " ++ fault.message
  | badSettings problem => "cannot parse --config-json: " ++ problem.message
  | pipeline error => "pipeline error: " ++ error.message
  | picture error => "export error: cannot replay program: " ++ error.message
  | unwritable path fault => "cannot write " ++ path ++ ": " ++ fault.message

/-- Something that a run does. -/
inductive Event where
  | imageRead (path : String) (bytes : Nat)
  | reportsIgnored
  | islandExtracted (island : Island)
  | extractionFinished (islands : Nat)
  | nearestSelected (s : Selection)
  | programAssembled (canvas : Dimensions) (commands : Nat)
  | compiled (p : Program)
  | documentWritten (path : String) (bytes : Nat)
  | pictureWritten (path : String) (bytes : Nat)
  | failed (f : Failure)
  deriving DecidableEq, Repr

namespace Event

/-- How pressing an event is. -/
def level : Event → Level
  | failed _ => .error
  | reportsIgnored => .warn
  | imageRead _ _ | compiled _ | documentWritten _ _ | pictureWritten _ _ => .info
  | extractionFinished _ | programAssembled _ _ => .debug
  | islandExtracted _ | nearestSelected _ => .trace

/-- The part of the program that an event comes from. -/
def source : Event → String
  | islandExtracted _ | extractionFinished _ => "turtlepen_pipeline::islands"
  | nearestSelected _ => "turtlepen_pipeline::tour"
  | programAssembled _ _ => "turtlepen_pipeline::assemble"
  | _ => "turtlepen"

/-- The message of an event. -/
def message : Event → String
  | imageRead _ _ => "read input image"
  | reportsIgnored =>
    "diagnostics are only collected for the filter pipeline; ignoring report flags"
  | islandExtracted _ => "island extracted"
  | extractionFinished _ => "island extraction finished"
  | nearestSelected _ => "nearest island selected"
  | programAssembled _ _ => "program assembled"
  | compiled _ => "compiled program"
  | documentWritten _ _ => "turtle JSON written"
  | pictureWritten _ _ => "SVG preview written"
  | failed f => f.message

/-- The fields of an event. -/
def fields : Event → List (String × String)
  | imageRead path bytes | documentWritten path bytes | pictureWritten path bytes =>
    [("path", path), ("bytes", Numeric.decimal bytes)]
  | reportsIgnored | failed _ => []
  | islandExtracted island =>
    let seed := island.first?.getD Pixel.origin
    [("seed.x", Numeric.decimal seed.x.toNat), ("seed.y", Numeric.decimal seed.y.toNat),
      ("pixels", Numeric.decimal island.size)]
  | extractionFinished islands => [("islands", Numeric.decimal islands)]
  | nearestSelected s =>
    [("from.x", Numeric.decimal s.position.x.toNat), ("from.y", Numeric.decimal s.position.y.toNat),
      ("index", Numeric.decimal s.index), ("distance", Numeric.decimal s.distance.toNat),
      ("remaining", Numeric.decimal s.remaining)]
  | programAssembled canvas commands =>
    [("width", Numeric.decimal canvas.width.toNat), ("height", Numeric.decimal canvas.height.toNat),
      ("commands", Numeric.decimal commands)]
  | compiled p =>
    [("width", Numeric.decimal p.dimensions.width.toNat),
      ("height", Numeric.decimal p.dimensions.height.toNat),
      ("commands", Numeric.decimal p.commands.length),
      ("islands", Numeric.decimal p.counts.penDowns),
      ("travel", Numeric.decimal p.counts.travelUnits)]

/-- The names of what an event consists of. -/
def fieldNames (e : Event) : List String := "message" :: e.fields.map (·.1)

/-- The line of an event in the log.  A message may hold what the terminal would obey. -/
def line (e : Event) : String :=
  e.level.name ++ " " ++ e.source ++ ": " ++ Text.forTerminal e.message
    ++ String.join (e.fields.map fun f => " " ++ f.1 ++ "=" ++ f.2)

end Event

/-- What the compilation of a mask logs. -/
def compilationEvents (m : Mask) : List Event :=
  let islands := m.islands
  let commands := (compileIslands islands m.dimensions).commands.length
  islands.map .islandExtracted ++ [.extractionFinished islands.length]
    ++ ((Pool.ofIslands islands).tour Pixel.origin).map .nearestSelected
    ++ [.programAssembled m.dimensions commands]

end PenPlotter.CommandLine
