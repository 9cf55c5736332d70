import PenPlotter.Numeric.Notation
import PenPlotter.Program
import PenPlotter.Replay

/-!
# Pictures of programs

The picture of a program shows what its replay leaves on the canvas, as an SVG document.  Every
stroke is a path through the centres of its pixels, and a stroke of a single point is a square the
size of a pixel.  Travel can be shown as dashed paths.  The picture may have a title and a
description, in which the three characters that could start markup are escaped, so no text can
pass for a drawing.

Coordinates of paths are numbers of single precision, written with the fewest digits.  Every
element has a line of its own; an element without children closes itself.
-/

namespace PenPlotter.Svg

open Numeric

/-- An element of a document. -/
inductive Element where
  /-- An element without content. -/
  | leaf (name : String) (attributes : List (String × String))
  /-- An element whose content is a text. -/
  | label (name : String) (text : String)
  /-- An element whose content is other elements. -/
  | group (name : String) (attributes : List (String × String)) (children : List Element)

/-- A character of a text, written so that it cannot start markup. -/
def escapedChar : Char → List Char
  | '&' => "&amp;".toList
  | '<' => "&lt;".toList
  | '>' => "&gt;".toList
  | c => [c]

/-- A text, written so that it holds no markup. -/
def escaped (s : String) : String := String.ofList (s.toList.flatMap escapedChar)

/-- Attributes as they are written behind the name of an element. -/
def attributeText (attributes : List (String × String)) : String :=
  String.join (attributes.map fun (k, v) => " " ++ k ++ "=\"" ++ v ++ "\"")

mutual

/-- The lines of an element. -/
def Element.lines : Element → List String
  | .leaf name attributes => ["<" ++ name ++ attributeText attributes ++ "/>"]
  | .label name text => ["<" ++ name ++ ">" ++ escaped text ++ "</" ++ name ++ ">"]
  | .group name attributes [] => ["<" ++ name ++ attributeText attributes ++ "/>"]
  | .group name attributes children =>
    ("<" ++ name ++ attributeText attributes ++ ">") :: linesOfAll children
      ++ ["</" ++ name ++ ">"]

/-- The lines of elements one after the other. -/
def linesOfAll : List Element → List String
  | [] => []
  | e :: es => e.lines ++ linesOfAll es

end

/-! ### Drawings -/

/-- The coordinate of the centre of a pixel. -/
def centre (i : Int) : Single := .ofRatio (decide (2 * i + 1 < 0)) (2 * i + 1).natAbs 2

/-- A point of a path. -/
def pointText (p : Point) : String :=
  (centre p.1).written messageStyle ++ "," ++ (centre p.2).written messageStyle

/-- The path through the centres of pixels. -/
def path (first : Point) (rest : List Point) : Element :=
  .leaf "path"
    [("d", " ".intercalate (("M" ++ pointText first) :: rest.map fun p => "L" ++ pointText p))]

/-- The square of a pixel. -/
def square (p : Point) : Element :=
  .leaf "rect"
    [("fill", "black"), ("height", "1"), ("stroke", "none"), ("width", "1"),
      ("x", signedDecimal p.1), ("y", signedDecimal p.2)]

/-- The mark of a stroke. -/
def strokeMark : List Point → Option Element
  | [] => none
  | [p] => some (square p)
  | p :: rest => some (path p rest)

/-- The mark of a leg of travel; a leg of a single point has none. -/
def travelMark : List Point → Option Element
  | p :: rest@(_ :: _) => some (path p rest)
  | _ => none

/-- The group of the strokes. -/
def strokeGroup (strokes : List (List Point)) : Element :=
  .group "g"
    [("fill", "none"), ("id", "strokes"), ("stroke", "black"), ("stroke-linecap", "square"),
      ("stroke-width", "1")]
    (strokes.filterMap strokeMark)

/-- The group of the travel. -/
def travelGroup (travel : List (List Point)) : Element :=
  .group "g"
    [("fill", "none"), ("id", "travel"), ("stroke", "red"), ("stroke-dasharray", "1,1"),
      ("stroke-width", "0.25")]
    (travel.filterMap travelMark)

/-- What a picture shows besides the strokes. -/
structure Options where
  title : Option String
  description : Option String
  showTravel : Bool
  deriving DecidableEq, Repr

/-- The document of a canvas with a trace on it. -/
def document (canvas : Dimensions) (t : Trace) (o : Options) : Element :=
  let width := decimal canvas.width.toNat
  let height := decimal canvas.height.toNat
  .group "svg"
    [("height", height), ("viewBox", "0 0 " ++ width ++ " " ++ height), ("width", width),
      ("xmlns", "http://www.w3.org/2000/svg")]
    ((o.title.map (Element.label "title")).toList
      ++ (o.description.map (Element.label "desc")).toList
      ++ [strokeGroup t.strokes]
      ++ if o.showTravel then [travelGroup t.travel] else [])

/-- The text of a document. -/
def Element.documentText (e : Element) : String :=
  "\n".intercalate ("<?xml version=\"1.0\" encoding=\"UTF-8\"?>" :: e.lines) ++ "\n"

end PenPlotter.Svg

namespace PenPlotter

/-- The picture of a program, unless it cannot be replayed on its canvas. -/
def Program.svg (p : Program) (o : Svg.Options) : Except ReplayError String :=
  (replayWithin p.commands p.dimensions).map fun t =>
    (Svg.document p.dimensions t o).documentText

/-- The wording of an error that leaves a program without a picture. -/
def pictureMessage (e : ReplayError) : String := "cannot replay program: " ++ e.message

end PenPlotter
