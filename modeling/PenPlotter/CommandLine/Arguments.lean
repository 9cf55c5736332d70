import PenPlotter.Numeric.Literal
import PenPlotter.Settings

/-!
# Command-line arguments

A command names an image and says by options what to do with it.  Options with a value take it
from the next argument, unless that looks like an option itself, or behind an equals sign; the one
short option takes it also without a break.  Behind two dashes everything is an image name.

Arguments are read from left to right and the first fault ends the reading: an option that is
unknown, given twice, or has no value or a bad one, or a second image.  The version is shown as
soon as it is asked for.  Only when all arguments are read does it matter that an image is named,
that an option comes with the one it needs, and that no two exclude each other.
-/

namespace PenPlotter.CommandLine

open Numeric

/-- What the program is asked to do. -/
structure Options where
  imagePath : String
  /-- The settings given by single options. -/
  settings : Settings
  /-- Settings as a JSON text; they replace all of `settings`. -/
  configJson : Option String
  /-- The image is a mask already. -/
  mask : Bool
  /-- The red level from which on a cell of a mask is inked. -/
  threshold : UInt8
  /-- Where the document goes, if not to the standard output. -/
  output : Option String
  /-- The document is indented. -/
  pretty : Bool
  /-- Where a picture goes, if one is wanted. -/
  svg : Option String
  showTravel : Bool
  report : Bool
  jsonReport : Bool
  deriving DecidableEq, Repr

/-- Options without a value. -/
inductive Switch where
  | invert
  | mask
  | pretty
  | showTravel
  | report
  | jsonReport
  deriving DecidableEq, Repr

/-- Options with a value. -/
inductive Valued where
  | blurSigma
  | cannyLow
  | cannyHigh
  | dilateIterations
  | configJson
  | threshold
  | output
  | svg
  deriving DecidableEq, Repr

/-- What has been read so far. -/
structure Given where
  image : Option String
  switches : List Switch
  blurSigma : Option Single
  cannyLow : Option Single
  cannyHigh : Option Single
  dilateIterations : Option UInt32
  configJson : Option String
  threshold : Option UInt8
  output : Option String
  svg : Option String

/-- Nothing has been read. -/
def Given.nothing : Given := ⟨none, [], none, none, none, none, none, none, none, none⟩

/-- What the arguments come to. -/
inductive Request where
  | run (o : Options)
  | version
  | help
  /-- The arguments are no command. -/
  | misuse
  deriving DecidableEq, Repr

/-! ### Values -/

/-- A natural number below a bound, written as a signed integer of 64 bits. -/
def boundedNat? (bound : Nat) (text : String) : Option Nat :=
  let (negative, ds) := takeSign text.toList
  if ds.isEmpty || !ds.all Char.isDigit then none
  else
    let n := ofDigits ds
    if negative then (if n = 0 then some 0 else none)
    else if n < bound then some n else none

/-- The name of a file, which is never empty. -/
def path? (text : String) : Option String := if text = "" then none else some text

/-- Fill what is still empty with a value. -/
def fill {α : Type} (slot value : Option α) : Option (Option α) :=
  match slot, value with
  | none, some a => some (some a)
  | _, _ => none

/-- What has been read together with the value of an option; none if the option has been given
before or the value is bad. -/
def Given.put (g : Given) (v : Valued) (text : String) : Option Given :=
  match v with
  | .blurSigma => (fill g.blurSigma (Binary.ofText? text)).map fun x => { g with blurSigma := x }
  | .cannyLow => (fill g.cannyLow (Binary.ofText? text)).map fun x => { g with cannyLow := x }
  | .cannyHigh => (fill g.cannyHigh (Binary.ofText? text)).map fun x => { g with cannyHigh := x }
  | .dilateIterations =>
    (fill g.dilateIterations ((boundedNat? UInt32.size text).map UInt32.ofNat)).map fun x =>
      { g with dilateIterations := x }
  | .configJson => (fill g.configJson (some text)).map fun x => { g with configJson := x }
  | .threshold =>
    (fill g.threshold ((boundedNat? UInt8.size text).map UInt8.ofNat)).map fun x =>
      { g with threshold := x }
  | .output => (fill g.output (path? text)).map fun x => { g with output := x }
  | .svg => (fill g.svg (path? text)).map fun x => { g with svg := x }

/-- What has been read together with an image. -/
def Given.putImage (g : Given) (text : String) : Option Given :=
  (fill g.image (path? text)).map fun x => { g with image := x }

/-- What has been read together with an option without a value. -/
def Given.putSwitch (g : Given) (s : Switch) : Option Given :=
  if s ∈ g.switches then none else some { g with switches := s :: g.switches }

/-! ### Single arguments -/

/-- What an argument is by itself. -/
inductive Argument where
  | image (path : String)
  | switch (s : Switch)
  /-- The value is in the next argument if it is not here. -/
  | valued (v : Valued) (text : Option String)
  | version
  | help
  | unknown
  deriving DecidableEq, Repr

/-- The options without a value, by their names. -/
def switchNames : List (String × Switch) :=
  [("invert", .invert), ("mask", .mask), ("pretty", .pretty), ("show-travel", .showTravel),
    ("report", .report), ("json-report", .jsonReport)]

/-- The options with a value, by their names. -/
def valuedNames : List (String × Valued) :=
  [("blur-sigma", .blurSigma), ("canny-low", .cannyLow), ("canny-high", .cannyHigh),
    ("dilate-iterations", .dilateIterations), ("config-json", .configJson),
    ("threshold", .threshold), ("output", .output), ("svg", .svg)]

/-- What an option is, by its name and the text behind its equals sign. -/
def ofName (name : String) (text : Option String) : Argument :=
  match valuedNames.lookup name, switchNames.lookup name, text with
  | some v, _, _ => .valued v text
  | none, some s, none => .switch s
  | none, none, none =>
    if name = "version" then .version else if name = "help" then .help else .unknown
  | none, _, some _ => .unknown

/-- What an argument is. -/
def classify (arg : String) : Argument :=
  match arg.toList with
  | '-' :: '-' :: rest =>
    let name := String.ofList (rest.takeWhile (· ≠ '='))
    let text := match rest.dropWhile (· ≠ '=') with
      | [] => none
      | _ :: text => some (String.ofList text)
    ofName name text
  | ['-', 'o'] => .valued .output none
  | '-' :: 'o' :: '=' :: text => .valued .output (some (String.ofList text))
  | '-' :: 'o' :: text => .valued .output (some (String.ofList text))
  | '-' :: 'V' :: _ => .version
  | '-' :: 'h' :: _ => .help
  | '-' :: _ :: _ => .unknown
  | _ => .image arg

/-- An argument that cannot be a value because it looks like an option. -/
def looksLikeOption (arg : String) : Bool :=
  match arg.toList with
  | '-' :: _ :: _ => true
  | _ => false

/-! ### All arguments -/

/-- What all arguments together come to. -/
def Given.request (g : Given) : Request :=
  let has (s : Switch) : Bool := s ∈ g.switches
  match g.image with
  | none => .misuse
  | some imagePath =>
    if g.threshold.isSome && !has .mask || has .showTravel && g.svg.isNone
        || has .report && has .jsonReport then .misuse
    else
      let s := Settings.standard
      .run
        { imagePath
          settings :=
            { blurSigma := g.blurSigma.getD s.blurSigma
              cannyLow := g.cannyLow.getD s.cannyLow
              cannyHigh := g.cannyHigh.getD s.cannyHigh
              dilateIterations := g.dilateIterations.getD s.dilateIterations
              invert := has .invert }
          configJson := g.configJson
          mask := has .mask
          threshold := g.threshold.getD 255
          output := g.output
          pretty := has .pretty
          svg := g.svg
          showTravel := has .showTravel
          report := has .report
          jsonReport := has .jsonReport }

/-- Go on with what has been read, if it could be. -/
def continueWith (g : Option Given) (next : Given → Request) : Request :=
  match g with
  | some g => next g
  | none => .misuse

/-- Read image names only. -/
def readImages : List String → Given → Request
  | [], g => g.request
  | arg :: rest, g => continueWith (g.putImage arg) (readImages rest)

/-- Read arguments. -/
def readArguments : List String → Given → Request
  | [], g => g.request
  | arg :: rest, g =>
    if arg = "--" then readImages rest g
    else
      match classify arg with
      | .image path => continueWith (g.putImage path) (readArguments rest)
      | .switch s => continueWith (g.putSwitch s) (readArguments rest)
      | .valued v (some text) => continueWith (g.put v text) (readArguments rest)
      | .valued v none =>
        match rest with
        | text :: rest =>
          if looksLikeOption text then .misuse
          else continueWith (g.put v text) (readArguments rest)
        | [] => .misuse
      | .version => .version
      | .help => .help
      | .unknown => .misuse

/-- What the arguments of a command ask for. -/
def request (args : List String) : Request := readArguments args .nothing

end PenPlotter.CommandLine
