import PenPlotter.Json.Codec

/-!
# Durations

A duration is a whole number of nanoseconds.  It is written as a number of seconds in double
precision, the sum of the whole seconds and of the nanoseconds left over divided by a thousand
millions, and read from one by rounding the exact value to the nearest nanosecond.  Seconds that
are negative, not finite, or 2^64 or more are no duration.
-/

namespace PenPlotter

open Numeric

/-- A span of time. -/
structure Duration where
  nanoseconds : Nat
  deriving DecidableEq, Repr, Inhabited

namespace Duration

/-- Nanoseconds in a second. -/
def perSecond : Nat := 1000000000

/-- The duration in seconds, in double precision. -/
def seconds (d : Duration) : Double :=
  let whole : Double := .ofNat (d.nanoseconds / perSecond)
  let part : Double := .ofNat (d.nanoseconds % perSecond)
  whole.plus (part.dividedBy (.ofNat perSecond))

/-- The duration in milliseconds, in double precision. -/
def milliseconds (d : Duration) : Double := d.seconds.times (.ofNat 1000)

/-- The duration nearest to a number of seconds. -/
def ofSeconds? (b : Double) : Option Duration :=
  match b.decode with
  | .finite negative m q =>
    if negative ∧ m ≠ 0 then none
    else if UInt64.size * raised 2 (-q) ≤ m * raised 2 q then none
    else some ⟨roundDiv (m * raised 2 q * perSecond) (raised 2 (-q)) .even⟩
  | _ => none

/-- How durations are written and read. -/
def codec : Json.Codec Duration where
  encode := fun d => .double d.seconds
  decode := fun v => do
    let b ← Json.decodeDouble v
    match ofSeconds? b with
    | some d => return d
    | none => Json.misfit .badDuration

end Duration

end PenPlotter
