import PenPlotter.Diagnostics

/-!
# Diagnostics as JSON

Metrics are written as an object with the name of the stage and an object of its numbers.  A stage
of inversion that is not there is written as `null`, and may be left out of what is read.
-/

namespace PenPlotter

open Json

namespace StageMetrics

/-- A kind of metrics. -/
inductive Kind where
  | decode
  | blur
  | edgeDetection
  | dilate
  | invert
  | mask
  | islandExtraction
  | assembly
  deriving DecidableEq, Repr

/-- The kinds with their names. -/
def kinds : List (String × Kind) :=
  [("Decode", .decode), ("Blur", .blur), ("EdgeDetection", .edgeDetection), ("Dilate", .dilate),
    ("Invert", .invert), ("Mask", .mask), ("IslandExtraction", .islandExtraction),
    ("Assembly", .assembly)]

/-- Write metrics. -/
def encode : StageMetrics → Value
  | .decode m => .object [("Decode", .object
      [("input_bytes", .natural m.inputBytes), ("width", .word m.width),
        ("height", .word m.height)])]
  | .blur sigma => .object [("Blur", .object [("sigma", .single sigma)])]
  | .edgeDetection m => .object [("EdgeDetection", .object
      [("low_threshold", .single m.low), ("high_threshold", .single m.high),
        ("edge_pixel_count", .natural m.edgePixels)])]
  | .dilate m => .object [("Dilate", .object
      [("iterations", .word m.iterations), ("edge_pixel_count", .natural m.litPixels)])]
  | .invert litPixels => .object [("Invert", .object [("edge_pixel_count", .natural litPixels)])]
  | .mask m => .object [("Mask", .object
      [("foreground_count", .natural m.inkedPixels), ("cell_count", .natural m.cells)])]
  | .islandExtraction m => .object [("IslandExtraction", .object
      [("island_count", .natural m.count), ("min_island_pixels", .natural m.smallest),
        ("max_island_pixels", .natural m.largest), ("mean_island_pixels", .double m.mean)])]
  | .assembly m => .object [("Assembly", .object
      [("counts", commandCounts.encode m.counts), ("command_count", .natural m.commands)])]

/-- Read the numbers of a kind of metrics. -/
def decodePayload (v : Node) : Kind → Except Problem StageMetrics
  | .decode => (decodeStruct "struct variant StageMetrics::Decode"
      [.required "input_bytes" decodeSize fun inputBytes m => { m with inputBytes },
        .required "width" decodeWord fun width m => { m with width },
        .required "height" decodeWord fun height m => { m with height }]
      (default : DecodeMetrics) v).map .decode
  | .blur => (decodeStruct "struct variant StageMetrics::Blur"
      [.required "sigma" decodeSingle fun sigma _ => sigma] .zero v).map .blur
  | .edgeDetection => (decodeStruct "struct variant StageMetrics::EdgeDetection"
      [.required "low_threshold" decodeSingle fun low m => { m with low },
        .required "high_threshold" decodeSingle fun high m => { m with high },
        .required "edge_pixel_count" decodeCount fun edgePixels m => { m with edgePixels }]
      (⟨.zero, .zero, 0⟩ : EdgeMetrics) v).map .edgeDetection
  | .dilate => (decodeStruct "struct variant StageMetrics::Dilate"
      [.required "iterations" decodeWord fun iterations m => { m with iterations },
        .required "edge_pixel_count" decodeCount fun litPixels m => { m with litPixels }]
      (default : DilateMetrics) v).map .dilate
  | .invert => (decodeStruct "struct variant StageMetrics::Invert"
      [.required "edge_pixel_count" decodeCount fun litPixels _ => litPixels] 0 v).map .invert
  | .mask => (decodeStruct "struct variant StageMetrics::Mask"
      [.required "foreground_count" decodeSize fun inkedPixels m => { m with inkedPixels },
        .required "cell_count" decodeCount fun cells m => { m with cells }]
      (default : MaskMetrics) v).map .mask
  | .islandExtraction => (decodeStruct "struct variant StageMetrics::IslandExtraction"
      [.required "island_count" decodeSize fun count m => { m with count },
        .required "min_island_pixels" decodeSize fun smallest m => { m with smallest },
        .required "max_island_pixels" decodeSize fun largest m => { m with largest },
        .required "mean_island_pixels" decodeDouble fun mean m => { m with mean }]
      (⟨0, 0, 0, .zero⟩ : IslandMetrics) v).map .islandExtraction
  | .assembly => (decodeStruct "struct variant StageMetrics::Assembly"
      [.required "counts" commandCounts.decode fun counts m => { m with counts },
        .required "command_count" decodeSize fun commands m => { m with commands }]
      (default : AssemblyMetrics) v).map .assembly

/-- How metrics are written and read; a name alone is not enough. -/
def codec : Codec StageMetrics where
  encode := encode
  decode := decodeVariant kinds (fun _ => misfit (.wrongType .unitVariant "struct variant"))
    fun kind v => decodePayload v kind

end StageMetrics

namespace Stage

/-- How stages are written and read. -/
def codec : Codec Stage where
  encode := fun s => .object
    [("duration", Duration.codec.encode s.duration), ("metrics", s.metrics.encode)]
  decode := decodeStruct "struct StageDiagnostics"
    [.required "duration" Duration.codec.decode fun duration s => { s with duration },
      .required "metrics" StageMetrics.codec.decode fun metrics s => { s with metrics }]
    ⟨default, .invert 0⟩

/-- A stage that may be missing. -/
def decodeOptional : Decoder (Option Stage)
  | .null => .ok none
  | v => (codec.decode v).map some

end Stage

/-- How summaries are written and read. -/
def Summary.codec : Codec Summary where
  encode := fun s => .object
    [("width", .word s.width), ("height", .word s.height), ("island_count", .natural s.islands),
      ("command_count", .natural s.commands)]
  decode := decodeStruct "struct PipelineSummary"
    [.required "width" decodeWord fun width s => { s with width },
      .required "height" decodeWord fun height s => { s with height },
      .required "island_count" decodeSize fun islands s => { s with islands },
      .required "command_count" decodeSize fun commands s => { s with commands }] default

namespace Diagnostics

/-- Diagnostics with nothing read into them yet. -/
def blank : Diagnostics :=
  let s : Stage := ⟨default, .invert 0⟩
  ⟨s, s, s, s, none, s, s, s, default, default⟩

/-- How diagnostics are written and read. -/
def codec : Codec Diagnostics where
  encode := fun d => .object
    [("decode", Stage.codec.encode d.decode), ("blur", Stage.codec.encode d.blur),
      ("edge_detection", Stage.codec.encode d.edgeDetection),
      ("dilate", Stage.codec.encode d.dilate),
      ("invert", (d.invert.map Stage.codec.encode).getD .null),
      ("mask", Stage.codec.encode d.mask),
      ("island_extraction", Stage.codec.encode d.islandExtraction),
      ("assembly", Stage.codec.encode d.assembly),
      ("total_duration", Duration.codec.encode d.total),
      ("summary", Summary.codec.encode d.summary)]
  decode := decodeStruct "struct PipelineDiagnostics"
    [.required "decode" Stage.codec.decode fun decode d => { d with decode },
      .required "blur" Stage.codec.decode fun blur d => { d with blur },
      .required "edge_detection" Stage.codec.decode fun edgeDetection d => { d with edgeDetection },
      .required "dilate" Stage.codec.decode fun dilate d => { d with dilate },
      { Field.required "invert" Stage.decodeOptional (fun invert d => { d with invert }) with
        presence := .optional },
      .required "mask" Stage.codec.decode fun mask d => { d with mask },
      .required "island_extraction" Stage.codec.decode fun islandExtraction d =>
        { d with islandExtraction },
      .required "assembly" Stage.codec.decode fun assembly d => { d with assembly },
      .required "total_duration" Duration.codec.decode fun total d => { d with total },
      .required "summary" Summary.codec.decode fun summary d => { d with summary }] blank

end Diagnostics

end PenPlotter
