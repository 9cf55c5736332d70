import PenPlotter.CommandLine.Event
import PenPlotter.Numeric.Digits
import PenPlotter.Text.Alphanumeric
import PenPlotter.Text.Blank
import PenPlotter.Text.Parts

/-!
# Log filters

A filter says which events are logged.  It is a list of *directives*, written with commas between
them.  A directive has a threshold, which lets events of its own level and of the more pressing
ones through, and may be about some events only: about those whose source begins in a certain way,
about those with a certain field, or about those inside a certain span.  So

* `warn` is a threshold for all events,
* `turtlepen_pipeline=debug` one for the sources that begin with that name,
* `turtlepen_pipeline` lets all events of these sources through, and
* `[{bytes}]=info` is about the events with a field `bytes`.

Of all directives about an event the most specific one decides (`LogFilter.deciding?`), and if
there is none the event is not logged.  No event of this program is inside a span.
-/

namespace PenPlotter.CommandLine

/-! ### Thresholds -/

/-- What a threshold lets through, by name, from nothing to everything. -/
def thresholds : List (String × Option Level) :=
  [("off", none), ("error", some .error), ("warn", some .warn), ("info", some .info),
    ("debug", some .debug), ("trace", some .trace)]

/-- The number that a word of digits stands for; it may have a plus sign. -/
def wordNumber? (word : List Char) : Option Nat :=
  let ds := match word with
    | '+' :: ds => ds
    | ds => ds
  if ds.isEmpty || !ds.all Char.isDigit then none else some (Numeric.ofDigits ds)

/-- The threshold that a word stands for, by its place or by its name in letters of either case. -/
def threshold? (word : List Char) : Option (Option Level) :=
  match wordNumber? word with
  | some n => (thresholds[n]?).map (·.2)
  | none => thresholds.lookup (String.ofList (word.map Char.toLower))

/-! ### Directives -/

/-- A field that an event must have, perhaps with a certain value. -/
structure FieldPattern where
  name : String
  value : Option String
  deriving DecidableEq, Repr

/-- A threshold and the events that it is for. -/
structure Directive where
  /-- How the source begins. -/
  source : Option String
  span : Option String
  field : Option FieldPattern
  threshold : Option Level
  deriving DecidableEq, Repr

namespace Directive

/-- A threshold for all events. -/
def general (threshold : Option Level) : Directive := ⟨none, none, none, threshold⟩

/-- Whether a directive is about an event.  Only spans have fields with values to be compared. -/
def concerns (d : Directive) (e : Event) : Bool :=
  d.span.isNone
    && (d.source.all fun s => s.toList.isPrefixOf e.source.toList)
    && (d.field.all fun f => f.value.isNone && e.fieldNames.contains f.name)

/-- How much of the source a directive fixes. -/
def reach (d : Directive) : Nat := (d.source.map fun s => s.utf8ByteSize + 1).getD 0

/-- The name of the field that a directive asks for. -/
def fieldName (d : Directive) : List Char := (d.field.map fun f => f.name.toList).getD []

/-- The order of words in a dictionary. -/
def precedes : List Char → List Char → Bool
  | [], w => !w.isEmpty
  | _ :: _, [] => false
  | a :: v, b :: w => a.toNat < b.toNat || (a == b && precedes v w)

/-- Whether a directive gives way to another one that is written behind it. -/
def yieldsTo (d d' : Directive) : Bool :=
  d.reach < d'.reach || (d.reach == d'.reach && !precedes d'.fieldName d.fieldName)

end Directive

/-! ### Reading directives -/

/-- The threshold at the end of a directive: everything passes if none is written.  A directive
that begins with a blank cannot have one. -/
def thresholdBehind? (opening : List Char) : List Char → Option (Option Level)
  | [] => some (some .trace)
  | '=' :: word =>
    if opening.head?.any Text.isBlank then none
    else if word.isEmpty then some (some .trace)
    else threshold? word
  | rest => if rest.all Text.isBlank then some (some .trace) else none

/-- A field in a directive: its name, and a value behind an equals sign. -/
def fieldPattern (text : List Char) : FieldPattern :=
  match Text.parts '=' text with
  | name :: value :: _ => ⟨String.ofList name, some (String.ofList value)⟩
  | _ => ⟨String.ofList text, none⟩

/-- A span in brackets and the field in braces that may close it, with what follows. -/
def spanAndField? (text : List Char) : Option (Option String × Option FieldPattern × List Char) :=
  let opens (c : Char) : Bool := c != ']' && c != '\x7b'
  let span := text.takeWhile opens
  match text.dropWhile opens with
  | ']' :: rest => some (some (String.ofList span), none, rest)
  | '\x7b' :: rest =>
    let field := rest.takeWhile (· != '\x7d')
    match field, rest.dropWhile (· != '\x7d') with
    | _ :: _, '\x7d' :: ']' :: rest =>
      some (if span.isEmpty then none else some (String.ofList span), some (fieldPattern field), rest)
    | _, _ => none
  | _ => none

/-- Whether a directive may open with a character. -/
def opensDirective (c : Char) : Bool :=
  c == '[' || c == '-' || c == ':' || c == '_' || Text.isAlphanumeric c

/-- The directive that a text stands for. -/
def Directive.read? (text : List Char) : Option Directive :=
  if (text.dropWhile Text.isBlank).head?.any opensDirective then
    let named (c : Char) : Bool := c != '=' && c != '['
    let name := text.takeWhile named
    let source := if name.isEmpty then none else some (String.ofList name)
    match text.dropWhile named with
    | [] =>
      match threshold? name with
      | some t => some (.general t)
      | none => some { Directive.general (some .trace) with source }
    | '[' :: rest => do
      let (span, field, rest) ← spanAndField? rest
      return ⟨source, span, field, ← thresholdBehind? text rest⟩
    | rest => do return ⟨source, none, none, ← thresholdBehind? text rest⟩
  else none

/-! ### Filters -/

/-- Directives in the order in which they are written. -/
structure LogFilter where
  directives : List Directive
  deriving DecidableEq, Repr

namespace LogFilter

/-- The filter with one threshold for all events. -/
def upTo (level : Level) : LogFilter := ⟨[.general (some level)]⟩

/-- The filter that a text stands for.  Without any directive it lets errors through. -/
def read? (text : String) : Option LogFilter :=
  match Text.filledParts ',' text.toList with
  | [] => some (upTo .error)
  | pieces => (pieces.mapM Directive.read?).map LogFilter.mk

/-- The filter of a run, by the text that is given for it. -/
def chosen (text : Option String) : LogFilter := (text.bind read?).getD (upTo .info)

/-- The most specific directive about an event; of equal ones the last. -/
def deciding? (f : LogFilter) (e : Event) : Option Directive :=
  (f.directives.filter (·.concerns e)).foldl
    (fun best d =>
      match best with
      | some b => if b.yieldsTo d then some d else some b
      | none => some d)
    none

/-- Whether an event is logged. -/
def passes (f : LogFilter) (e : Event) : Bool :=
  match (f.deciding? e).bind Directive.threshold with
  | some level => e.level.rank ≤ level.rank
  | none => false

/-- The lines of the events that are logged. -/
def lines (f : LogFilter) (events : List Event) : List String :=
  (events.filter f.passes).map Event.line

end LogFilter

end PenPlotter.CommandLine
