import PenPlotter.Numeric.Binary

/-!
# The fewest digits that read back

Every finite number of a format is the nearest one to all reals of an interval around it: the
interval ends half way to its neighbours, and its ends belong to it when the mantissa is even.
`shortest` gives the decimal with the fewest digits in that interval, of several the one nearest
to the number.  It tries one digit, then two, and so on; with a given number of digits only the
two decimals next to the number can be nearest, so it tests these two.  If none were found it
would give the exact value.
-/

namespace PenPlotter.Numeric

/-- The decimal `digits · 10^exponent`. -/
structure Decimal where
  digits : Nat
  exponent : Int
  deriving DecidableEq, Repr

namespace Shortest

/-- A positive number `mantissa · 2^exponent` whose distance to the number below may be half of
that to the number above. -/
structure Target where
  mantissa : Nat
  exponent : Int
  narrowBelow : Bool

/-- The target of a finite number of a format. -/
def Target.of (f : Format) (mantissa : Nat) (exponent : Int) : Target :=
  ⟨mantissa, exponent, mantissa == f.fractions && decide (f.leastExponent < exponent)⟩

/-- Compare `a · 10^i` with `n · 2^j`. -/
def compareScaled (a : Nat) (i : Int) (n : Nat) (j : Int) : Ordering :=
  compare (a * raised 10 i * raised 2 (-j)) (n * raised 2 j * raised 10 (-i))

/-- The decimal lies in the interval of the target. -/
def Target.holds (t : Target) (d : Decimal) : Bool :=
  let low := compareScaled d.digits d.exponent
    (4 * t.mantissa - if t.narrowBelow then 1 else 2) (t.exponent - 2)
  let high := compareScaled d.digits d.exponent (4 * t.mantissa + 2) (t.exponent - 2)
  if t.mantissa % 2 = 0 then low != .lt && high != .gt else low == .gt && high == .lt

/-- The least `k` for which the target is below `10^k`. -/
def Target.scale (t : Target) : Int :=
  let guess : Int := (t.mantissa.log2 + t.exponent) * 1233 / 4096
  let candidates := [guess - 1, guess, guess + 1, guess + 2]
  (candidates.find? fun k => compareScaled 1 k t.mantissa t.exponent == .gt).getD (guess + 3)

/-- The target in units of `10^exponent`, rounded down. -/
def Target.floorAt (t : Target) (exponent : Int) : Nat :=
  (t.mantissa * raised 2 t.exponent * raised 10 (-exponent))
    / (raised 2 (-t.exponent) * raised 10 exponent)

/-- The decimal with a given last place that lies in the interval and is nearest to the target. -/
def Target.nearest? (t : Target) (tie : Tie) (exponent : Int) : Option Decimal :=
  let below := t.floorAt exponent
  let lower : Decimal := ⟨below, exponent⟩
  let upper : Decimal := ⟨below + 1, exponent⟩
  match t.holds lower, t.holds upper with
  | false, false => none
  | true, false => some lower
  | false, true => some upper
  | true, true =>
    match compareScaled (2 * below + 1) exponent t.mantissa (t.exponent + 1), tie with
    | .gt, _ => some lower
    | .lt, _ => some upper
    | .eq, .away => some upper
    | .eq, .even => some (if below % 2 = 0 then lower else upper)

/-- The exact value of the target. -/
def Target.exact (t : Target) : Decimal :=
  if t.exponent < 0 then ⟨t.mantissa * raised 5 (-t.exponent), t.exponent⟩
  else ⟨t.mantissa * raised 2 t.exponent, 0⟩

/-- More digits than any number of the formats in use needs. -/
def enoughDigits : Nat := 20

/-- The decimal without zeros at its end. -/
def stripZeros (d : Decimal) : Decimal :=
  if d.digits ≠ 0 ∧ d.digits % 10 = 0 then stripZeros ⟨d.digits / 10, d.exponent + 1⟩ else d
termination_by d.digits

/-- The shortest decimal in the interval of the target. -/
def Target.shortest (t : Target) (tie : Tie) : Decimal :=
  let k := t.scale
  let found := (List.range enoughDigits).findSome? fun n => t.nearest? tie (k - (n + 1 : Nat))
  stripZeros (found.getD t.exact)

end Shortest

/-- The fewest digits that read back to a positive finite number of a format. -/
def shortest (f : Format) (tie : Tie) (mantissa : Nat) (exponent : Int) : Decimal :=
  (Shortest.Target.of f mantissa exponent).shortest tie

end PenPlotter.Numeric
