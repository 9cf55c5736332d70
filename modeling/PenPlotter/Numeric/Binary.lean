import PenPlotter.Numeric.Power
import PenPlotter.Numeric.Rounding

/-!
# Binary floating-point numbers

A number of a format is a pattern of bits: a sign, an exponent, and a fraction.  `decode` says
what it stands for, `ofRatio` rounds a non-negative quotient to the nearest number of the format,
a tie going to the even pattern, and `ofDecimal` does so for a decimal.  Numbers other than NaN
are ordered by `key`, which counts the patterns from zero on in either direction (`lt_iff`,
`le_iff`, `key_larger`, `key_smaller`).

The two formats in use have 23 and 52 bits of fraction.
-/

namespace PenPlotter.Numeric

/-- How many bits the fraction and the exponent of a format have. -/
structure Format where
  fractionBits : Nat
  exponentBits : Nat

namespace Format

/-- Single precision. -/
def single : Format := ⟨23, 8⟩

/-- Double precision. -/
def double : Format := ⟨52, 11⟩

/-- The weight of the sign bit. -/
def signBit (f : Format) : Nat := power 2 (f.fractionBits + f.exponentBits)

/-- How many fractions there are. -/
def fractions (f : Format) : Nat := power 2 f.fractionBits

/-- The pattern of positive infinity; those above it, up to the sign bit, are NaN. -/
def infinityBits (f : Format) : Nat := (power 2 f.exponentBits - 1) * f.fractions

/-- The exponent of the least positive number, a power of two. -/
def leastExponent (f : Format) : Int :=
  2 - (power 2 (f.exponentBits - 1) : Int) - f.fractionBits

end Format

/-- A number of a format, by its pattern of bits. -/
structure Binary (f : Format) where
  bits : Nat
  deriving DecidableEq, Repr

/-- A number of single precision. -/
abbrev Single := Binary Format.single

/-- A number of double precision. -/
abbrev Double := Binary Format.double

/-- What a pattern of bits stands for. -/
inductive Reading where
  | nan
  | infinite (negative : Bool)
  /-- The number `mantissa · 2^exponent` with a sign. -/
  | finite (negative : Bool) (mantissa : Nat) (exponent : Int)
  deriving DecidableEq, Repr

namespace Binary

variable {f : Format}

/-- The pattern without its sign. -/
def magnitude (b : Binary f) : Nat := b.bits % f.signBit

/-- The sign bit is set. -/
def isNegative (b : Binary f) : Bool := b.bits / f.signBit % 2 == 1

/-- The pattern stands for no number. -/
def isNaN (b : Binary f) : Bool := decide (f.infinityBits < b.magnitude)

/-- The pattern stands for a number that is not infinite. -/
def isFinite (b : Binary f) : Bool := decide (b.magnitude < f.infinityBits)

/-- What the pattern stands for. -/
def decode (b : Binary f) : Reading :=
  if b.isNaN then .nan
  else if b.isFinite then
    let biased := b.magnitude / f.fractions
    let fraction := b.magnitude % f.fractions
    if biased = 0 then .finite b.isNegative fraction f.leastExponent
    else .finite b.isNegative (f.fractions + fraction) (f.leastExponent + (biased - 1))
  else .infinite b.isNegative

/-! ### Rounding to a format -/

/-- The pattern of a sign and a magnitude. -/
def ofMagnitude (negative : Bool) (magnitude : Nat) : Binary f :=
  ⟨(if negative then f.signBit else 0) + magnitude⟩

/-- The number nearest to a quotient with a sign; from half a unit beyond the greatest number on
it is infinite. -/
def ofRatio (negative : Bool) (num den : Nat) : Binary f :=
  if num = 0 then ofMagnitude negative 0
  else
    -- The exponent at which the mantissa has all its bits, or the least one.
    let guess : Int := (num.log2 : Int) - den.log2 - f.fractionBits
    let scaled (q : Int) : Nat × Nat := (num * raised 2 (-q), den * raised 2 q)
    let short := (scaled guess).1 < (scaled guess).2 * f.fractions
    let exponent := max f.leastExponent (if short then guess - 1 else guess)
    let (n, d) := scaled exponent
    let pattern := (exponent - f.leastExponent).toNat * f.fractions + roundDiv n d .even
    ofMagnitude negative (min pattern f.infinityBits)

/-- The number nearest to `digits · 10^exponent` with a sign.  Decimals out of the reach of every
format are settled by their order of magnitude. -/
def ofDecimal (negative : Bool) (digits : Nat) (exponent : Int) : Binary f :=
  let reach : Int := 2000
  let order : Int := digits.log2 / 4 + exponent
  if digits = 0 then ofMagnitude negative 0
  else if reach < order then ofMagnitude negative f.infinityBits
  else if exponent + (digits.log2 + 1 : Nat) < -reach then ofMagnitude negative 0
  else ofRatio negative (digits * raised 10 exponent) (raised 10 (-exponent))

/-- The number nearest to a natural number. -/
def ofNat (n : Nat) : Binary f := ofRatio false n 1

/-! ### Order -/

/-- The place of a number in the order of its format; zero, of either sign, is at 0. -/
def key (b : Binary f) : Int := if b.isNegative then -(b.magnitude : Int) else b.magnitude

/-- Less than; never true of NaN. -/
def lt (a b : Binary f) : Bool := !a.isNaN && !b.isNaN && decide (a.key < b.key)

/-- Less than or equal; never true of NaN. -/
def le (a b : Binary f) : Bool := !a.isNaN && !b.isNaN && decide (a.key ≤ b.key)

/-- Zero, without a sign. -/
def zero : Binary f := ⟨0⟩

/-- The larger of two numbers; if one is NaN, the other. -/
def larger (a b : Binary f) : Binary f :=
  if a.isNaN then b else if a.lt b then b else a

/-- The smaller of two numbers; if one is NaN, the other. -/
def smaller (a b : Binary f) : Binary f :=
  if a.isNaN then b else if b.lt a then b else a

theorem isNaN_of_isFinite {a : Binary f} (h : a.isFinite = true) : a.isNaN = false := by
  rw [isFinite, decide_eq_true_eq] at h
  rw [isNaN, decide_eq_false_iff_not]
  exact Nat.not_lt.mpr (Nat.le_of_lt h)

section Keys

variable {a b : Binary f} (ha : a.isNaN = false) (hb : b.isNaN = false)

include ha hb

theorem lt_iff : a.lt b = true ↔ a.key < b.key := by
  simp [lt, ha, hb]

theorem le_iff : a.le b = true ↔ a.key ≤ b.key := by
  simp [le, ha, hb]

theorem larger_eq : a.larger b = if a.key < b.key then b else a := by
  simp [larger, lt, ha, hb]

theorem smaller_eq : a.smaller b = if b.key < a.key then b else a := by
  simp [smaller, lt, ha, hb]

theorem key_larger : (a.larger b).key = max a.key b.key := by
  rw [larger_eq ha hb]
  split <;> omega

theorem key_smaller : (a.smaller b).key = min a.key b.key := by
  rw [smaller_eq ha hb]
  split <;> omega

end Keys

theorem isFinite_larger {a b : Binary f} (ha : a.isFinite = true) (hb : b.isFinite = true) :
    (a.larger b).isFinite = true := by
  rw [larger_eq (isNaN_of_isFinite ha) (isNaN_of_isFinite hb)]
  split
  · exact hb
  · exact ha

theorem isFinite_smaller {a b : Binary f} (ha : a.isFinite = true) (hb : b.isFinite = true) :
    (a.smaller b).isFinite = true := by
  rw [smaller_eq (isNaN_of_isFinite ha) (isNaN_of_isFinite hb)]
  split
  · exact hb
  · exact ha

/-! ### Arithmetic of finite numbers that are not negative -/

/-- The exact value of a finite number, without its sign, as a quotient. -/
def ratio (b : Binary f) : Nat × Nat :=
  match b.decode with
  | .finite _ m q => (m * raised 2 q, raised 2 (-q))
  | _ => (0, 1)

/-- The number nearest to the sum. -/
def plus (a b : Binary f) : Binary f :=
  let (n, d) := a.ratio
  let (m, e) := b.ratio
  ofRatio false (n * e + m * d) (d * e)

/-- The number nearest to the product. -/
def times (a b : Binary f) : Binary f :=
  let (n, d) := a.ratio
  let (m, e) := b.ratio
  ofRatio false (n * m) (d * e)

/-- The number nearest to the quotient. -/
def dividedBy (a b : Binary f) : Binary f :=
  let (n, d) := a.ratio
  let (m, e) := b.ratio
  ofRatio false (n * e) (d * m)

end Binary

/-- The single-precision number nearest to a number of double precision. -/
def Binary.toSingle (b : Double) : Single :=
  match b.decode with
  | .nan => ⟨0x7fc00000⟩
  | .infinite negative => .ofMagnitude negative Format.single.infinityBits
  | .finite negative _ _ => .ofRatio negative b.ratio.1 b.ratio.2

/-- The machine number with the same bits. -/
def Binary.toMachine (b : Single) : Float32 := Float32.ofBits (UInt32.ofNat b.bits)

end PenPlotter.Numeric
