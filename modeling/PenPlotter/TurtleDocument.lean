import PenPlotter.Json.Codec

/-!
# Turtle documents

A turtle document is the form in which programs are handed to drawing tools: an object with the
sides of the canvas and the tokens of the commands, such as
`\x7b"size":[4,4],"data":["u","m1","r90","m1","d"]\x7d`.  It has a compact and an indented layout.
-/

namespace PenPlotter

/-- The sides of a canvas and the commands to be obeyed on it. -/
structure TurtleDocument where
  size : UInt32 × UInt32
  data : List Command
  deriving DecidableEq, Repr, Inhabited

namespace TurtleDocument

/-- The document of a program. -/
def ofProgram (p : Program) : TurtleDocument :=
  ⟨(p.dimensions.width, p.dimensions.height), p.commands⟩

/-- The program of a document. -/
def toProgram (d : TurtleDocument) : Program := ⟨d.data, ⟨d.size.1, d.size.2⟩⟩

/-- How documents are written and read. -/
def codec : Json.Codec TurtleDocument where
  encode := fun d => .object
    [("size", .list [.word d.size.1, .word d.size.2]), ("data", Json.command.list.encode d.data)]
  decode := Json.decodeStruct "struct TurtleDocument"
    [.required "size" Json.decodeWordPair fun size d => { d with size },
      .required "data" Json.command.list.decode fun data d => { d with data }] default

/-- The document in a text. -/
def parse (text : String) : Except Json.Problem TurtleDocument := codec.read text

/-- The wording of a problem with the text of a document. -/
def problemMessage (p : Json.Problem) : String := "turtle JSON error: " ++ p.message

@[simp] theorem toProgram_ofProgram (p : Program) : (ofProgram p).toProgram = p := rfl

@[simp] theorem ofProgram_toProgram (d : TurtleDocument) : ofProgram d.toProgram = d := rfl

end TurtleDocument

/-- The document of a program, in compact layout. -/
def Program.turtleText (p : Program) : String :=
  TurtleDocument.codec.write (.ofProgram p)

/-- The document of a program, in indented layout. -/
def Program.turtleTextIndented (p : Program) : String :=
  (TurtleDocument.codec.encode (.ofProgram p)).prettyText

end PenPlotter
