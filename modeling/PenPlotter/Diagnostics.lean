import PenPlotter.Duration
import PenPlotter.Pipeline

/-!
# Diagnostics

Diagnostics say of every stage of a run how long it took and what came out of it.  Time comes from
outside: a `Clock` gives the readings of a run one after the other, one for each stage as it ends,
and a last one for the whole run.  There is a stage of inversion only when the settings ask for
it.

`processDiagnosed` runs the same stages as `process` and gives the same program or the same error.
`timedRun` reads the clock of a machine while it carries the stages out.
-/

namespace PenPlotter

open Numeric

/-- The readings of a run, by their place in it. -/
abbrev Clock := Nat → Duration

/-! ### What a stage is told by -/

structure DecodeMetrics where
  inputBytes : Nat
  width : UInt32
  height : UInt32
  deriving DecidableEq, Repr, Inhabited

/-- The thresholds are those in force. -/
structure EdgeMetrics where
  low : Single
  high : Single
  edgePixels : Nat
  deriving DecidableEq, Repr

structure DilateMetrics where
  iterations : UInt32
  litPixels : Nat
  deriving DecidableEq, Repr, Inhabited

structure MaskMetrics where
  inkedPixels : Nat
  cells : Nat
  deriving DecidableEq, Repr, Inhabited

/-- How many islands there are, and how large the smallest, the largest and the mean are. -/
structure IslandMetrics where
  count : Nat
  smallest : Nat
  largest : Nat
  mean : Double
  deriving DecidableEq, Repr

structure AssemblyMetrics where
  counts : CommandCounts
  commands : Nat
  deriving DecidableEq, Repr, Inhabited

/-- What came out of a stage. -/
inductive StageMetrics where
  | decode (m : DecodeMetrics)
  | blur (sigma : Single)
  | edgeDetection (m : EdgeMetrics)
  | dilate (m : DilateMetrics)
  | invert (litPixels : Nat)
  | mask (m : MaskMetrics)
  | islandExtraction (m : IslandMetrics)
  | assembly (m : AssemblyMetrics)
  deriving DecidableEq, Repr

/-- A stage: how long it took and what came out of it. -/
structure Stage where
  duration : Duration
  metrics : StageMetrics
  deriving DecidableEq, Repr

/-- The whole run in four numbers. -/
structure Summary where
  width : UInt32
  height : UInt32
  islands : Nat
  commands : Nat
  deriving DecidableEq, Repr, Inhabited

/-- All stages of a run. -/
structure Diagnostics where
  decode : Stage
  blur : Stage
  edgeDetection : Stage
  dilate : Stage
  /-- There is none when the settings do not ask for it. -/
  invert : Option Stage
  mask : Stage
  islandExtraction : Stage
  assembly : Stage
  total : Duration
  summary : Summary
  deriving DecidableEq, Repr

/-! ### Diagnosing a run -/

/-- The metrics of islands; all are zero if there are none. -/
def IslandMetrics.ofIslands (islands : List Island) : IslandMetrics :=
  match islands.map Island.size with
  | [] => ⟨0, 0, 0, .zero⟩
  | size :: sizes =>
    let total := sizes.foldl Nat.add size
    ⟨islands.length, sizes.foldl Nat.min size, sizes.foldl Nat.max size,
      Binary.dividedBy (.ofNat total) (.ofNat islands.length)⟩

/-- What a run makes on the way to its program. -/
structure Run where
  gray : Image.Gray
  filtered : Filtered
  mask : Mask
  islands : List Island
  program : Program

/-- A run up to its program, stage by stage. -/
def runBy {m : Type → Type} [Monad m] [MonadLiftT (Except PipelineError) m] (g : Staging m)
    (decoder : Image.Decoder) (bytes : ByteArray) (s : Settings) : m Run := do
  s.validate.mapError PipelineError.settings
  let gray ← (← g.carry fun _ => Image.decodeLuminance decoder bytes).mapError PipelineError.image
  let filtered ← s.filterBy g gray
  let mask ← (← g.carry fun _ => Mask.ofGray filtered.result).mapError PipelineError.mask
  let islands ← g.carry fun _ => mask.islands
  let program ← g.carry fun _ => compileIslands islands mask.dimensions
  return ⟨gray, filtered, mask, islands, program⟩

/-- A run up to its program. -/
def runStages (decoder : Image.Decoder) (bytes : ByteArray) (s : Settings) :
    Except PipelineError Run := runBy .plain decoder bytes s

/-- The diagnostics of a run. -/
def Run.diagnose (r : Run) (inputBytes : Nat) (s : Settings) (clock : Clock) : Diagnostics :=
  -- The readings after the four stages that are always there and the optional fifth.
  let later := if s.invert then 5 else 4
  { decode := ⟨clock 0, .decode ⟨inputBytes, r.gray.width, r.gray.height⟩⟩
    blur := ⟨clock 1, .blur s.blurSigma⟩
    edgeDetection := ⟨clock 2, .edgeDetection
      ⟨Image.Gray.lowInForce s.cannyLow s.cannyHigh, Image.Gray.highInForce s.cannyHigh,
        r.filtered.edges.litCount⟩⟩
    dilate := ⟨clock 3, .dilate ⟨s.dilateIterations, r.filtered.dilated.litCount⟩⟩
    invert := r.filtered.inverted.map fun g => ⟨clock 4, .invert g.litCount⟩
    mask := ⟨clock later, .mask
      ⟨r.mask.inkCount, r.mask.width.toNat * r.mask.height.toNat⟩⟩
    islandExtraction := ⟨clock (later + 1), .islandExtraction (.ofIslands r.islands)⟩
    assembly := ⟨clock (later + 2), .assembly
      ⟨r.program.counts, r.program.commands.length⟩⟩
    total := clock (later + 3)
    summary := ⟨r.program.dimensions.width, r.program.dimensions.height, r.islands.length,
      r.program.commands.length⟩ }

/-- The run of an encoded photo, with its diagnostics. -/
def diagnosedRun (decoder : Image.Decoder) (bytes : ByteArray) (s : Settings) (clock : Clock) :
    Except PipelineError (Run × Diagnostics) := do
  let r ← runStages decoder bytes s
  return (r, r.diagnose bytes.size s clock)

/-- The program of an encoded photo, with the diagnostics of the run. -/
def processDiagnosed (decoder : Image.Decoder) (bytes : ByteArray) (s : Settings)
    (clock : Clock) : Except PipelineError (Program × Diagnostics) := do
  let (r, d) ← diagnosedRun decoder bytes s clock
  return (r.program, d)

/-! ### The clock of a machine -/

section Clocks

variable {m : Type → Type} [Monad m]

/-- The stages are carried out in a run that may fail. -/
def Staging.lifted (g : Staging m) : Staging (ExceptT PipelineError m) :=
  ⟨fun work => ExceptT.lift (g.carry work)⟩

/-- What each stage takes is put down, by a clock `now` that reads nanoseconds. -/
def Staging.timed (g : Staging m) (now : m Nat) : Staging (StateT (List Duration) m) where
  carry work := do
    let start ← now
    let value ← g.carry work
    let stop ← now
    modify (· ++ [⟨stop - start⟩])
    return value

/-- The run of an encoded photo, with diagnostics by a clock that reads nanoseconds. -/
def timedRun (g : Staging m) (now : m Nat) (decoder : Image.Decoder) (bytes : ByteArray)
    (s : Settings) : m (Except PipelineError (Run × Diagnostics)) := do
  let start ← now
  let (made, laps) ← (runBy (g.timed now).lifted decoder bytes s).run.run []
  let stop ← now
  let clock : Clock := fun i => laps.getD i ⟨stop - start⟩
  return made.map fun r => (r, r.diagnose bytes.size s clock)

end Clocks

end PenPlotter
