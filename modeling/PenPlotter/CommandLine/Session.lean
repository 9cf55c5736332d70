import PenPlotter.CommandLine.Arguments
import PenPlotter.CommandLine.Event
import PenPlotter.Diagnostics.Codec
import PenPlotter.Diagnostics.Report
import PenPlotter.Svg
import PenPlotter.TurtleDocument

/-!
# Running a command

A run is a *plan*, a list of steps that are taken in order: an event is logged, a report is shown,
a text is printed, or a file is written.  The plan depends on the arguments and on what reading
the image gives; it is a failing step when there is no program.  So a run that gets no program
prints and writes nothing.

First a program is obtained: the image is compiled as a mask, or through the filter chain with
diagnostics by a *runner*, which may look at a clock.  Then it is delivered, as a turtle document to
the standard output or to a file, and as a picture to a file if one is wanted.

`Outcome.carryOut` takes the steps of a plan in a tree of files.  The first file that cannot be
written ends the run.
-/

namespace PenPlotter.CommandLine

/-- A report on how a program came about. -/
inductive Report where
  | text (content : String)
  | json (content : String)
  deriving DecidableEq, Repr

/-- Something that a run does. -/
inductive Step where
  | log (e : Event)
  | report (r : Report)
  | print (text : String)
  | write (path : String) (content : ByteArray)
  | fail (f : Failure)

/-- A program with what is known about how it came about. -/
structure Obtained where
  program : Program
  report : Option Report
  events : List Event

/-! ### Obtaining a program -/

/-- The settings of a run: those of the JSON text if there is one. -/
def Options.chosenSettings (o : Options) : Except Failure Settings :=
  match o.configJson with
  | some text => (Settings.codec.read text).mapError .badSettings
  | none => .ok o.settings

/-- The report that is wanted. -/
def Options.reportOf (o : Options) (d : Diagnostics) : Option Report :=
  if o.jsonReport then some (.json (Diagnostics.codec.encode d).prettyText)
  else if o.report then some (.text d.report)
  else none

/-- A program from an image that is a mask already. -/
def obtainFromMask (decoder : Image.Decoder) (o : Options) (bytes : ByteArray) :
    Except Failure Obtained := do
  let mask ← (decodeMask decoder bytes o.threshold).mapError .pipeline
  return ⟨mask.compile, none, compilationEvents mask⟩

/-- A program from the diagnosed run of a photo. -/
def Options.obtainedFrom (o : Options) (made : Except PipelineError (Run × Diagnostics)) :
    Except Failure Obtained := do
  let (run, d) ← made.mapError .pipeline
  return ⟨run.program, o.reportOf d, compilationEvents run.mask⟩

section Runners

variable {m : Type → Type} [Monad m]

/-- What makes the diagnosed run of a photo. -/
abbrev Runner (m : Type → Type) :=
  ByteArray → Settings → m (Except PipelineError (Run × Diagnostics))

/-- A program from a photo, through the filter chain. -/
def obtainFromPhoto (runner : Runner m) (o : Options) (bytes : ByteArray) :
    m (Except Failure Obtained) :=
  match o.chosenSettings with
  | .error f => pure (.error f)
  | .ok settings => o.obtainedFrom <$> runner bytes settings

/-- A program from an image. -/
def obtain (decoder : Image.Decoder) (runner : Runner m) (o : Options) (bytes : ByteArray) :
    m (Except Failure Obtained) :=
  if o.mask then pure (obtainFromMask decoder o bytes) else obtainFromPhoto runner o bytes

end Runners

/-! ### Plans -/

/-- The steps that deliver the turtle document. -/
def Options.documentSteps (o : Options) (p : Program) : List Step :=
  let text := if o.pretty then p.turtleTextIndented else p.turtleText
  match o.output with
  | none => [.print (text ++ "\n")]
  | some path =>
    [.write path (text ++ "\n").toUTF8, .log (.documentWritten path text.utf8ByteSize)]

/-- What the picture of a run shows. -/
def Options.picture (o : Options) (p : Program) : Svg.Options where
  title := some ((fileStem? o.imagePath).getD "turtlepen")
  description := some (Numeric.decimal p.commands.length ++ " turtle commands")
  showTravel := o.showTravel

/-- The steps that deliver the picture, if one is wanted. -/
def Options.pictureSteps (o : Options) (p : Program) : List Step :=
  match o.svg with
  | none => []
  | some path =>
    match p.svg (o.picture p) with
    | .ok text => [.write path text.toUTF8, .log (.pictureWritten path text.utf8ByteSize)]
    | .error e => [.fail (.picture e)]

/-- The steps that follow the reading of the image, by whether a program has been obtained. -/
def Options.stepsAfterReading (o : Options) : Except Failure Obtained → List Step
  | .error f => [.fail f]
  | .ok ⟨program, report, events⟩ =>
    events.map .log ++ (report.map .report).toList ++ [.log (.compiled program)]
      ++ o.documentSteps program ++ o.pictureSteps program

/-- The plan of a run, by what reading the image gives. -/
def Options.plan {m : Type → Type} [Monad m] (o : Options) (decoder : Image.Decoder)
    (runner : Runner m) : Except FileFault ByteArray → m (List Step)
  | .error fault => return [.fail (.unreadable o.imagePath fault)]
  | .ok bytes => do
    let obtained ← obtain decoder runner o bytes
    return .log (.imageRead o.imagePath bytes.size)
      :: (if o.mask && (o.report || o.jsonReport) then [.log .reportsIgnored] else [])
      ++ o.stepsAfterReading obtained

/-! ### Taking the steps of a plan -/

/-- What a run leaves behind. -/
structure Outcome where
  exit : Nat
  stdout : String
  report : Option Report
  events : Array Event
  files : FileTree

namespace Outcome

/-- Nothing has been done. -/
def start (t : FileTree) : Outcome := ⟨0, "", none, #[], t⟩

/-- The outcome of a run that ends by a failure. -/
def failed (o : Outcome) (f : Failure) : Outcome :=
  { o with exit := 1, events := o.events.push (.failed f) }

/-- Take steps up to the first that fails. -/
def carryOut (o : Outcome) : List Step → Outcome
  | [] => o
  | .log e :: rest => { o with events := o.events.push e }.carryOut rest
  | .report r :: rest => { o with report := some r }.carryOut rest
  | .print text :: rest => { o with stdout := o.stdout ++ text }.carryOut rest
  | .write path content :: rest =>
    match o.files.write path content with
    | .ok files => { o with files, stdout := o.stdout ++ o.files.echo path content }.carryOut rest
    | .error fault => o.failed (.unwritable path fault)
  | .fail f :: _ => o.failed f

end Outcome

/-! ### Commands -/

/-- The line that shows the version. -/
def versionText : String := "turtlepen 0.1.0\n"

/-- The runner that makes runs with diagnostics by a clock. -/
def Runner.clocked (decoder : Image.Decoder) (clock : Clock) : Runner Id := fun bytes s =>
  pure (diagnosedRun decoder bytes s clock)

/-- Do in a tree of files what the arguments ask for.  The text that shows how the program is used
is left out. -/
def perform (t : FileTree) (decoder : Image.Decoder) (clock : Clock) (args : List String) :
    Outcome :=
  let start := Outcome.start t
  match request args with
  | .run o =>
    start.carryOut (o.plan decoder (Runner.clocked decoder clock) (t.read o.imagePath)).run
  | .version => start.carryOut [.print versionText]
  | .help => start
  | .misuse => { start with exit := 2 }

end PenPlotter.CommandLine
