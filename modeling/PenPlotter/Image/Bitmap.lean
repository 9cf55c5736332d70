import PenPlotter.Image.Color

/-!
# Bitmaps

An uncompressed bitmap starts with a header of numbers at fixed places, written with the low byte
first.  The header says how large the picture is, how many bits a cell has, and where the cells
begin.  Cells of eight bits are places in a palette, which stands behind the header; cells of 24
and of 32 bits are colours themselves, blue first.  Every row is filled up to a multiple of four
bytes, and rows come from the bottom to the top unless the height is negative.

`Bitmap.decode` is a decoder of such images.  It refuses bytes that do not begin with the mark of a
bitmap, and bitmaps of another kind.
-/

namespace PenPlotter.Image

/-- The number whose bytes are given, the low byte first. -/
def littleEndian : List UInt8 → Nat
  | [] => 0
  | b :: bs => b.toNat + 256 * littleEndian bs

/-- The number in a span of bytes, if it lies within them. -/
def numberAt? (bytes : ByteArray) (offset length : Nat) : Option Nat :=
  if offset + length ≤ bytes.size then
    some (littleEndian (bytes.extract offset (offset + length)).toList)
  else none

/-- The signed integer that 32 bits stand for. -/
def signed32 (n : Nat) : Int := (UInt32.ofNat n).toInt32.toInt

/-- What the header of a bitmap says. -/
structure Bitmap where
  width : UInt32
  height : UInt32
  /-- The topmost row comes first. -/
  fromTop : Bool
  bitsPerCell : Nat
  /-- Where the palette begins. -/
  palette : Nat
  /-- Where the cells begin. -/
  cells : Nat
  deriving DecidableEq, Repr

namespace Bitmap

/-- The letters B and M, with which a bitmap begins. -/
def mark : Nat := 0x4d42

/-- The header of a bitmap, behind its mark. -/
def ofBytes? (bytes : ByteArray) : Option Bitmap := do
  let cells ← numberAt? bytes 10 4
  let headerSize ← numberAt? bytes 14 4
  let width ← numberAt? bytes 18 4
  let height := signed32 (← numberAt? bytes 22 4)
  let bitsPerCell ← numberAt? bytes 28 2
  let compression ← numberAt? bytes 30 4
  -- Only 32-bit cells may have masks of their own.
  if 40 ≤ headerSize ∧ (compression = 0 ∨ compression = 3 ∧ bitsPerCell = 32) then
    some ⟨UInt32.ofNat width, UInt32.ofNat height.natAbs, decide (height < 0), bitsPerCell,
      14 + headerSize, cells⟩
  else none

/-- The colour of three bytes, blue first. -/
def colorAt? (bytes : ByteArray) (offset : Nat) : Option Color := do
  let blue ← bytes[offset]?
  let green ← bytes[offset + 1]?
  let red ← bytes[offset + 2]?
  return if red = green ∧ green = blue then .gray red else .rgb red green blue

/-- How many bytes a row takes. -/
def stride (b : Bitmap) : Nat := (b.width.toNat * b.bitsPerCell + 31) / 32 * 4

/-- The colour of a cell. -/
def color? (b : Bitmap) (bytes : ByteArray) (x y : Nat) : Option Color :=
  let row := if b.fromTop then y else b.height.toNat - 1 - y
  let start := b.cells + row * b.stride
  match b.bitsPerCell with
  | 8 => do
    let entry ← bytes[start + x]?
    colorAt? bytes (b.palette + 4 * entry.toNat)
  | 24 => colorAt? bytes (start + 3 * x)
  | 32 => colorAt? bytes (start + 4 * x)
  | _ => none

/-- The picture of a bitmap, if all its cells are there. -/
def raster? (b : Bitmap) (bytes : ByteArray) : Option Raster := do
  -- A bitmap that is too short is refused before its cells are looked at.
  if bytes.size < b.cells + b.stride * b.height.toNat then none
  else
    let places := (List.range b.height.toNat).flatMap fun y =>
      (List.range b.width.toNat).map fun x => (x, y)
    let colors ← places.mapM fun (x, y) => b.color? bytes x y
    Grid.ofCells? b.width b.height colors.toArray

/-- Decode a bitmap. -/
def decode : Decoder := fun bytes =>
  if numberAt? bytes 0 2 = some mark then
    match (ofBytes? bytes).bind fun b => b.raster? bytes with
    | some raster => .ok raster
    | none => .error "The bitmap is cut short or of an unknown kind"
  else .error "The image format could not be determined"

end Bitmap

end PenPlotter.Image
