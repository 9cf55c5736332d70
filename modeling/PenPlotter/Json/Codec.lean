import PenPlotter.Island
import PenPlotter.Json.Value
import PenPlotter.Plotter
import PenPlotter.Program

/-!
# Values as JSON

A codec pairs the way a value is written with the way it is read.  This module has the codecs of
pixels, canvases, plotters, commands, islands, counts and programs.  A structure is written as an
object of its fields, a case without data as its name, a command as its token, and an island as
the list of its pixels.
-/

namespace PenPlotter.Json

/-- How values are written and read. -/
structure Codec (α : Type) where
  encode : α → Value
  decode : Decoder α

namespace Codec

/-- The compact text of a value. -/
def write {α : Type} (c : Codec α) (a : α) : String := (c.encode a).compactText

/-- The value of a text. -/
def read {α : Type} (c : Codec α) (text : String) : Except Problem α := Json.decode c.decode text

/-- Lists of values. -/
def list {α : Type} (c : Codec α) : Codec (List α) where
  encode := fun as => .list (as.map c.encode)
  decode := decodeList c.decode

/-- Values with names. -/
def named {α : Type} [BEq α] (names : List (String × α)) : Codec α where
  encode := fun a => .text (((names.find? fun n => n.2 == a).map (·.1)).getD "")
  decode := decodeName names

end Codec

def pixel : Codec Pixel where
  encode := fun p => .object [("x", .word p.x), ("y", .word p.y)]
  decode := decodeStruct "struct Pixel"
    [.required "x" decodeWord fun x p => { p with x },
      .required "y" decodeWord fun y p => { p with y }] default

def dimensions : Codec Dimensions where
  encode := fun d => .object [("width", .word d.width), ("height", .word d.height)]
  decode := decodeStruct "struct Dimensions"
    [.required "width" decodeWord fun width d => { d with width },
      .required "height" decodeWord fun height d => { d with height }] default

/-- Headings are named by the axis they follow. -/
def heading : Codec Heading := .named
  [("PositiveX", .right), ("PositiveY", .down), ("NegativeX", .left), ("NegativeY", .up)]

def pen : Codec Pen := .named [("Up", .up), ("Down", .down)]

def plotterState : Codec PlotterState where
  encode := fun s => .object
    [("position", pixel.encode s.position), ("heading", heading.encode s.heading),
      ("pen", pen.encode s.pen)]
  decode := decodeStruct "struct PlotterState"
    [.required "position" pixel.decode fun position s => { s with position },
      .required "heading" heading.decode fun heading s => { s with heading },
      .required "pen" pen.decode fun pen s => { s with pen }] default

/-- Commands are written as their tokens. -/
def command : Codec Command where
  encode := fun c => .text c.token
  decode := decodeCommand

def island : Codec Island where
  encode := fun i => .list (i.pixels.map pixel.encode)
  decode := fun v => (decodeList pixel.decode v).map Island.mk

def commandCounts : Codec CommandCounts where
  encode := fun n => .object
    [("pen_ups", .natural n.penUps), ("pen_downs", .natural n.penDowns),
      ("rotations", .natural n.rotations), ("moves", .natural n.moves),
      ("travel_units", .natural n.travelUnits)]
  decode := decodeStruct "struct CommandCounts"
    [.required "pen_ups" decodeSize fun penUps n => { n with penUps },
      .required "pen_downs" decodeSize fun penDowns n => { n with penDowns },
      .required "rotations" decodeSize fun rotations n => { n with rotations },
      .required "moves" decodeSize fun moves n => { n with moves },
      .required "travel_units" decodeCount fun travelUnits n => { n with travelUnits }] default

def program : Codec Program where
  encode := fun p => .object
    [("commands", command.list.encode p.commands), ("dimensions", dimensions.encode p.dimensions)]
  decode := decodeStruct "struct Program"
    [.required "commands" command.list.decode fun commands p => { p with commands },
      .required "dimensions" dimensions.decode fun dimensions p => { p with dimensions }] default

end PenPlotter.Json
