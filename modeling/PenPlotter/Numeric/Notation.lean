import PenPlotter.Numeric.Digits
import PenPlotter.Numeric.Shortest

/-!
# How numbers are written

A decimal is written *positionally*, with as many zeros as it takes, or in *exponent form*, with
one digit before the point.  A `Style` says when which of them is used for the shortest decimal of
a number, and how the values without one are written.  `fixed` writes a number with a set number
of places instead, rounding its exact value and a tie to the even digit.
-/

namespace PenPlotter.Numeric

/-- The decisions of a way to write numbers. -/
structure Style where
  /-- Whether a number whose first digit has this decimal exponent is written positionally. -/
  isPositional : Int → Bool
  /-- Whether a whole number is written with a point and a zero. -/
  pointZero : Bool
  /-- Which of two equally near shortest decimals is written. -/
  tie : Tie
  /-- The text of NaN. -/
  nan : String
  /-- The texts of positive and negative infinity. -/
  infinity : String
  negativeInfinity : String

namespace Decimal

/-- The decimal exponent of the first digit. -/
def order (d : Decimal) : Int := d.exponent + (Numeric.digits d.digits).length - 1

/-- The decimal with as many zeros as it takes. -/
def positional (pointZero : Bool) (d : Decimal) : List Char :=
  let ds := Numeric.digits d.digits
  let tail := if pointZero then ['.', '0'] else []
  if 0 ≤ d.exponent then ds ++ List.replicate d.exponent.toNat '0' ++ tail
  else
    let places := (-d.exponent).toNat
    let padded := List.replicate (places + 1 - ds.length) '0' ++ ds
    padded.take (padded.length - places) ++ '.' :: padded.drop (padded.length - places)

/-- The decimal with one digit before the point and a signed exponent. -/
def scientific (d : Decimal) : List Char :=
  let mantissa := match Numeric.digits d.digits with
    | first :: rest@(_ :: _) => first :: '.' :: rest
    | ds => ds
  let order := d.order
  mantissa ++ ['e', if order < 0 then '-' else '+'] ++ Numeric.digits order.natAbs

/-- The decimal as a style writes it. -/
def written (s : Style) (d : Decimal) : List Char :=
  if s.isPositional d.order then d.positional s.pointZero else d.scientific

end Decimal

/-- A number as a style writes it. -/
def Binary.written {f : Format} (s : Style) (b : Binary f) : String :=
  match b.decode with
  | .nan => s.nan
  | .infinite negative => if negative then s.negativeInfinity else s.infinity
  | .finite negative m q =>
    let d : Decimal := if m = 0 then ⟨0, 0⟩ else shortest f s.tie m q
    String.ofList ((if negative then ['-'] else []) ++ d.written s)

/-- Numbers in messages: never in exponent form, whole numbers without a point. -/
def messageStyle : Style where
  isPositional := fun _ => true
  pointZero := false
  tie := .away
  nan := "NaN"
  infinity := "inf"
  negativeInfinity := "-inf"

/-- A number with a set number of places. -/
def Binary.fixed {f : Format} (places : Nat) (b : Binary f) : String :=
  match b.decode with
  | .nan => messageStyle.nan
  | .infinite negative => if negative then messageStyle.negativeInfinity else messageStyle.infinity
  | .finite negative m q =>
    let scaled := roundDiv (m * raised 2 q * power 10 places) (raised 2 (-q)) .even
    let ds := Numeric.digits scaled
    let padded := List.replicate (places + 1 - ds.length) '0' ++ ds
    let point := if places = 0 then [] else ['.']
    String.ofList ((if negative then ['-'] else []) ++ padded.take (padded.length - places)
      ++ point ++ padded.drop (padded.length - places))

end PenPlotter.Numeric
