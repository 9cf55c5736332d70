import PenPlotter.Image.Gray

/-!
# Colour images and their levels

An encoded image decodes to a grid of colours.  A colour is gray or has three channels, of eight
or of sixteen bits; transparency plays no part.  Two gray images are taken from it: the
*luminance*, which weighs the three channels as the eye does, and the *red channel*, which reads
a gray colour by its level.

A sixteen-bit level becomes an eight-bit one by rounding to the nearest 257th.
-/

namespace PenPlotter.Image

/-- The colour of a cell. -/
inductive Color where
  | gray (level : UInt8)
  | gray16 (level : UInt16)
  | rgb (red green blue : UInt8)
  | rgb16 (red green blue : UInt16)
  deriving DecidableEq, Repr

namespace Color

/-- The eight-bit level nearest to a sixteen-bit one. -/
def narrow (level : UInt16) : UInt8 := UInt8.ofNat ((level.toNat + 128) / 257)

/-- The luminance of three channels, each at most `top`, in single precision: each is scaled to
one, weighed, and the sum scaled to 255 and rounded, a half away from zero. -/
def weighed (top red green blue : Nat) : UInt8 :=
  let scale : Float32 := 1 / Float32.ofNat top
  let part (channel : Nat) (weight : UInt32) : Float32 :=
    Float32.ofNat channel * scale * Float32.ofBits weight
  let sum := 0 + part red 0x3e59c05b + part green 0x3f3715fc + part blue 0x3d93cf75
  (sum * 255).round.toUInt8

/-- The level of a colour to the eye. -/
def luminance : Color → UInt8
  | gray level => level
  | gray16 level => narrow level
  | rgb red green blue => weighed 255 red.toNat green.toNat blue.toNat
  | rgb16 red green blue => weighed 65535 red.toNat green.toNat blue.toNat

/-- The level of the red channel. -/
def redLevel : Color → UInt8
  | gray level => level
  | gray16 level => narrow level
  | rgb red _ _ => red
  | rgb16 red _ _ => narrow red

end Color

/-- A grid of colours. -/
abbrev Raster := Grid Color

/-- What turns encoded images into rasters, a function of the bytes alone; bytes that cannot be
decoded it refuses with the wording of the problem. -/
abbrev Decoder := ByteArray → Except String Raster

/-- Why an encoded image gives no raster. -/
inductive DecodeError where
  /-- There are no bytes. -/
  | empty
  /-- The decoder refuses the bytes. -/
  | undecodable (problem : String)
  deriving DecidableEq, Repr

/-- The raster of an encoded image. -/
def decode (decoder : Decoder) (bytes : ByteArray) : Except DecodeError Raster :=
  if bytes.size = 0 then .error .empty else (decoder bytes).mapError .undecodable

/-- The luminance of an encoded image. -/
def decodeLuminance (decoder : Decoder) (bytes : ByteArray) : Except DecodeError Gray :=
  (decode decoder bytes).map fun r => r.map Color.luminance

/-- The red channel of an encoded image. -/
def decodeRed (decoder : Decoder) (bytes : ByteArray) : Except DecodeError Gray :=
  (decode decoder bytes).map fun r => r.map Color.redLevel

end PenPlotter.Image
