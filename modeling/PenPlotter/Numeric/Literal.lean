import PenPlotter.Numeric.Binary
import PenPlotter.Numeric.Digits

/-!
# Numbers written by hand

A number given on the command line is a decimal with an optional sign, an optional point with
digits on at least one side of it, and an optional exponent; or one of the words for infinity and
NaN, in letters of either case.  `Binary.ofText?` reads it to the nearest number of a format.
-/

namespace PenPlotter.Numeric

/-- Take a sign off the front of a text. -/
def takeSign : List Char → Bool × List Char
  | '-' :: cs => (true, cs)
  | '+' :: cs => (false, cs)
  | cs => (false, cs)

/-- The value of an exponent behind its letter. -/
def exponentValue? (cs : List Char) : Option Int :=
  let (negative, ds) := takeSign cs
  if ds.isEmpty || !ds.all Char.isDigit then none
  else
    let n : Int := ofDigits ds
    some (if negative then -n else n)

/-- The digits and the exponent of a decimal without a sign. -/
def decimalParts? (cs : List Char) : Option (Nat × Int) := do
  let whole := cs.takeWhile Char.isDigit
  let rest := cs.dropWhile Char.isDigit
  let (fraction, rest) := match rest with
    | '.' :: rest => (rest.takeWhile Char.isDigit, rest.dropWhile Char.isDigit)
    | rest => ([], rest)
  if whole.isEmpty && fraction.isEmpty then none
  else
    let exponent ← match rest with
      | [] => some 0
      | c :: rest => if c = 'e' ∨ c = 'E' then exponentValue? rest else none
    some (ofDigits (whole ++ fraction), exponent - fraction.length)

/-- The number nearest to what a text says. -/
def Binary.ofText? {f : Format} (text : String) : Option (Binary f) :=
  let (negative, cs) := takeSign text.toList
  match decimalParts? cs with
  | some (digits, exponent) => some (.ofDecimal negative digits exponent)
  | none =>
    let word := String.ofList (cs.map Char.toLower)
    if word = "inf" ∨ word = "infinity" then some (.ofMagnitude negative f.infinityBits)
    else if word = "nan" then
      some (.ofMagnitude negative (f.infinityBits + power 2 (f.fractionBits - 1)))
    else none

end PenPlotter.Numeric
