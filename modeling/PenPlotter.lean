import PenPlotter.Command
import PenPlotter.Command.Token
import PenPlotter.CommandLine.Arguments
import PenPlotter.CommandLine.Event
import PenPlotter.CommandLine.FileTree
import PenPlotter.CommandLine.LogFilter
import PenPlotter.CommandLine.Session
import PenPlotter.Diagnostics
import PenPlotter.Diagnostics.Codec
import PenPlotter.Diagnostics.Report
import PenPlotter.Drawing
import PenPlotter.Duration
import PenPlotter.Heading
import PenPlotter.Image.Bitmap
import PenPlotter.Image.Blur
import PenPlotter.Image.Canny
import PenPlotter.Image.Color
import PenPlotter.Image.Dilation
import PenPlotter.Image.Filter
import PenPlotter.Image.Gray
import PenPlotter.Image.Grid
import PenPlotter.Island
import PenPlotter.Island.Extraction
import PenPlotter.Json.Codec
import PenPlotter.Json.Decode
import PenPlotter.Json.Node
import PenPlotter.Json.Token
import PenPlotter.Json.Value
import PenPlotter.Main
import PenPlotter.Mask
import PenPlotter.Numeric.Binary
import PenPlotter.Numeric.Digits
import PenPlotter.Numeric.Literal
import PenPlotter.Numeric.Notation
import PenPlotter.Numeric.Power
import PenPlotter.Numeric.Rounding
import PenPlotter.Numeric.Shortest
import PenPlotter.Pipeline
import PenPlotter.Pixel
import PenPlotter.Plotter
import PenPlotter.Program
import PenPlotter.Proofs.Canvas
import PenPlotter.Proofs.CommandLine.Delivery
import PenPlotter.Proofs.CommandLine.Files
import PenPlotter.Proofs.CommandLine.Obtaining
import PenPlotter.Proofs.CommandToken
import PenPlotter.Proofs.Confinement
import PenPlotter.Proofs.Connectivity
import PenPlotter.Proofs.Diagnostics
import PenPlotter.Proofs.Dilation
import PenPlotter.Proofs.Drawing
import PenPlotter.Proofs.Faults
import PenPlotter.Proofs.Flood
import PenPlotter.Proofs.Grammar
import PenPlotter.Proofs.Islands
import PenPlotter.Proofs.Json.Codec
import PenPlotter.Proofs.Json.Reading
import PenPlotter.Proofs.Json.Tokens
import PenPlotter.Proofs.Layers
import PenPlotter.Proofs.Legs
import PenPlotter.Proofs.LitCells
import PenPlotter.Proofs.Margin
import PenPlotter.Proofs.MaskCells
import PenPlotter.Proofs.MaskDrawing
import PenPlotter.Proofs.Merging
import PenPlotter.Proofs.Motion
import PenPlotter.Proofs.NormalForm
import PenPlotter.Proofs.Numeric.Halves
import PenPlotter.Proofs.Numeric.Wholes
import PenPlotter.Proofs.Outcomes
import PenPlotter.Proofs.Picture.Marks
import PenPlotter.Proofs.Picture.Reading
import PenPlotter.Proofs.Picture.Tags
import PenPlotter.Proofs.Recut
import PenPlotter.Proofs.RowMajor
import PenPlotter.Proofs.Search
import PenPlotter.Proofs.Separation
import PenPlotter.Proofs.Simulation
import PenPlotter.Proofs.Staging
import PenPlotter.Proofs.Steps
import PenPlotter.Proofs.Tour
import PenPlotter.Proofs.Travel
import PenPlotter.Proofs.Turns
import PenPlotter.Proofs.TurtleDocument
import PenPlotter.Proofs.Walk
import PenPlotter.Proofs.Zigzag
import PenPlotter.Queue
import PenPlotter.Replay
import PenPlotter.Settings
import PenPlotter.Svg
import PenPlotter.Text.Alphanumeric
import PenPlotter.Text.Blank
import PenPlotter.Text.Hidden
import PenPlotter.Text.Parts
import PenPlotter.Text.Quoted
import PenPlotter.Text.Terminal
import PenPlotter.Tour
import PenPlotter.Turtle
import PenPlotter.TurtleDocument
