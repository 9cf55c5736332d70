import PenPlotter.Text.Parts

/-!
# Files by their paths

Files lie in a tree of directories.  A *location* is a place in the tree, given by the names on the
way to it from the root, the last one first.  A path leads from the root if a slash opens it, and
from the working directory otherwise: by `.` it stays, by `..` it goes up, and by a name it goes
down.  It goes on only from a directory.

No directory is ever made, so the directories are known: those that every machine has below its
root, the working directory, and the ones above it.  The files are what is put between them, and
some devices pass for files: `/dev/null` swallows what is written to it, `/dev/full` has no room,
and the standard streams have names, of which the input is empty and the output shows what is
written.  `FileFault` says why a path does not lead to a file.
-/

namespace PenPlotter.CommandLine

/-- Why a file cannot be read or written. -/
inductive FileFault where
  | notFound
  | denied
  | notDirectory
  | isDirectory
  | noRoom
  | nameTooLong
  /-- The disk fails, or something else does. -/
  | failing
  deriving DecidableEq, Repr

/-- The wording of a fault. -/
def FileFault.message : FileFault → String
  | notFound => "No such file or directory (os error 2)"
  | denied => "Permission denied (os error 13)"
  | notDirectory => "Not a directory (os error 20)"
  | isDirectory => "Is a directory (os error 21)"
  | noRoom => "No space left on device (os error 28)"
  | nameTooLong => "File name too long (os error 36)"
  | failing => "Input/output error (os error 5)"

/-- The names on the way from the root to a place, the last one first. -/
abbrev Location := List String

/-- Files that are no files on a disk. -/
inductive Device where
  | null
  | full
  | input
  | output
  | errors
  deriving DecidableEq, Repr

/-- What is at a location. -/
inductive Entry where
  | directory
  | device (d : Device)
  | file (content : ByteArray)

/-- Files by location, and the working directory. -/
structure FileTree where
  working : Location
  files : List (Location × ByteArray)

/-- The directories below the root of every machine. -/
def standardDirectories : List String :=
  ["bin", "boot", "dev", "etc", "home", "lib", "media", "mnt", "opt", "proc", "root", "run",
    "sbin", "srv", "sys", "tmp", "usr", "var"]

/-- The devices by location. -/
def devices : List (Location × Device) :=
  [(["null", "dev"], .null), (["full", "dev"], .full), (["stdin", "dev"], .input),
    (["stdout", "dev"], .output), (["stderr", "dev"], .errors)]

/-- The most bytes a name can have. -/
def longestName : Nat := 255

/-- The most bytes a path can have. -/
def longestPath : Nat := 4095

namespace FileTree

/-- No files, and a working directory among the temporary ones. -/
def empty : FileTree := ⟨["work", "tmp"], []⟩

/-- The content of the file at a location. -/
def get? (t : FileTree) (l : Location) : Option ByteArray := t.files.lookup l

/-- The tree with a file put at a location, in the place of an earlier one. -/
def put (t : FileTree) (l : Location) (content : ByteArray) : FileTree :=
  { t with files := (l, content) :: t.files.filter fun f => f.1 ≠ l }

/-- Whether a location is a directory. -/
def isDirectory (t : FileTree) (l : Location) : Bool :=
  l.isSuffixOf t.working || standardDirectories.any fun name => l == [name]

/-- What is at a location. -/
def entry? (t : FileTree) (l : Location) : Option Entry :=
  if t.isDirectory l then some .directory
  else
    match devices.lookup l with
    | some d => some (.device d)
    | none => (t.get? l).map .file

/-! ### Following a path -/

/-- The components of a path: what stands between its slashes. -/
def components (path : String) : List String :=
  (Text.filledParts '/' path.toList).map String.ofList

/-- Go on from a location by one component. -/
def advance (t : FileTree) (l : Location) (component : String) : Except FileFault Location :=
  match t.entry? l with
  | none => .error .notFound
  | some (.device _) | some (.file _) => .error .notDirectory
  | some .directory =>
    if component = "." then .ok l
    else if component = ".." then .ok l.tail
    else if component.utf8ByteSize ≤ longestName then .ok (component :: l)
    else .error .nameTooLong

/-- Where a path begins. -/
def origin (t : FileTree) (path : String) : Location :=
  if path.toList.head? = some '/' then [] else t.working

/-- The location that a path leads to. -/
def locate (t : FileTree) (path : String) : Except FileFault Location :=
  if path.utf8ByteSize ≤ longestPath then (components path).foldlM t.advance (t.origin path)
  else .error .nameTooLong

/-- Whether a slash closes a path, so that it can only lead to a directory. -/
def endsInSlash (path : String) : Bool := path.toList.getLast? = some '/'

/-- The location that a path for a new file leads to.  If a slash closes the path, only what is
before its last component matters. -/
def locateNew (t : FileTree) (path : String) : Except FileFault Location :=
  if endsInSlash path && path.utf8ByteSize ≤ longestPath then do
    let _ ← ((components path).dropLast ++ ["."]).foldlM t.advance (t.origin path)
    .error .isDirectory
  else t.locate path

/-! ### Reading and writing -/

/-- Read the file that a path leads to. -/
def read (t : FileTree) (path : String) : Except FileFault ByteArray := do
  match t.entry? (← t.locate path), endsInSlash path with
  | none, _ => .error .notFound
  | some .directory, _ => .error .isDirectory
  | some _, true => .error .notDirectory
  | some (.device .null), false | some (.device .input), false => .ok .empty
  | some (.device _), false => .error .failing
  | some (.file content), false => .ok content

/-- Write the file that a path leads to. -/
def write (t : FileTree) (path : String) (content : ByteArray) : Except FileFault FileTree := do
  let l ← t.locateNew path
  match t.entry? l with
  | some .directory => .error .isDirectory
  | some (.device .full) => .error .noRoom
  | some (.device _) => .ok t
  | some (.file _) | none => .ok (t.put l content)

/-- What the standard output shows when the file that a path leads to is written. -/
def echo (t : FileTree) (path : String) (content : ByteArray) : String :=
  match t.locate path with
  | .ok l => if devices.lookup l = some .output then (String.fromUTF8? content).getD "" else ""
  | .error _ => ""

end FileTree

/-- The last component of a path without its extension, if it is a name. -/
def fileStem? (path : String) : Option String :=
  match (FileTree.components path).getLast? with
  | none | some "." | some ".." => none
  | some name =>
    match name.toList.reverse.dropWhile (· ≠ '.') with
    | [] | ['.'] => some name
    | _ :: stem => some (String.ofList stem.reverse)

end PenPlotter.CommandLine
