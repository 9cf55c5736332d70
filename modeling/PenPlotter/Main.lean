import PenPlotter.CommandLine.LogFilter
import PenPlotter.CommandLine.Session
import PenPlotter.Image.Bitmap

/-!
# The command

The command takes the steps of a plan in the files of the machine.  Events go to the standard
error, as far as the filter in the environment lets them through.  A photo is run once, and the
clock of the machine is read before and after each stage of that run.
-/

namespace PenPlotter.CommandLine

/-- The fault of a file that cannot be read or written.  The machine gives several faults the same
kind of error, and tells them apart by a number, with either sign. -/
def faultOf (e : IO.Error) : FileFault :=
  let is (code number : UInt32) : Bool := code == number || code == -number
  match e with
  | .noFileOrDirectory _ _ _ => .notFound
  | .permissionDenied _ _ _ => .denied
  | .inappropriateType _ code _ => if is code 20 then .notDirectory else .isDirectory
  | .invalidArgument _ code _ => if is code 36 then .nameTooLong else .failing
  | .resourceExhausted _ code _ => if is code 28 then .noRoom else .failing
  | _ => .failing

/-- Do something with a file. -/
def attempt {α : Type} (act : IO α) : IO (Except FileFault α) := do
  try
    return .ok (← act)
  catch e =>
    return .error (faultOf e)

/-- Write a file, and see that all of it has arrived. -/
def writeFile (path : String) (content : ByteArray) : IO Unit :=
  IO.FS.withFile path .write fun file => do
    file.write content
    file.flush

/-- The machine works out the value of a stage when the stage is carried out. -/
def atOnce : Staging IO := ⟨IO.lazyPure⟩

/-- Log an event, if the filter lets it through. -/
def log (filter : LogFilter) (e : Event) : IO Unit :=
  (filter.lines [e]).forM IO.eprintln

/-- Take steps up to the first that fails. -/
def takeSteps (filter : LogFilter) : List Step → IO UInt32
  | [] => return 0
  | .log e :: rest => do
    log filter e
    takeSteps filter rest
  | .report (.text content) :: rest | .report (.json content) :: rest => do
    IO.eprintln content
    takeSteps filter rest
  | .print text :: rest => do
    IO.print text
    takeSteps filter rest
  | .write path content :: rest => do
    match ← attempt (writeFile path content) with
    | .ok () => takeSteps filter rest
    | .error fault =>
      log filter (.failed (.unwritable path fault))
      return 1
  | .fail f :: _ => do
    log filter (.failed f)
    return 1

/-- The filter that the environment asks for. -/
def filterAsked : IO LogFilter := do
  return .chosen (← IO.getEnv "RUST_LOG")

end PenPlotter.CommandLine

open PenPlotter PenPlotter.CommandLine in
/-- Do what the arguments ask for. -/
def main (args : List String) : IO UInt32 := do
  let filter ← filterAsked
  match request args with
  | .run o =>
    let file ← attempt (IO.FS.readBinFile o.imagePath)
    let decoder := Image.Bitmap.decode
    takeSteps filter (← o.plan decoder (timedRun atOnce IO.monoNanosNow decoder) file)
  | .version => takeSteps filter [.print versionText]
  | .help => return 0
  | .misuse => return 2
