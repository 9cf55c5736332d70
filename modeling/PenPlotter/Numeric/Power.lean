/-!
# Powers

Numbers of different scales are compared and rounded over a common denominator.  A power with a
signed exponent is a factor above the fraction bar if the exponent is positive, and one below it
if the exponent is negative; `raised` gives the first, and the second with the exponent negated.
-/

namespace PenPlotter.Numeric

/-- The power with a natural exponent. -/
def power (base exponent : Nat) : Nat := Nat.pow base exponent

/-- The factor that a power with a signed exponent is above the fraction bar. -/
def raised (base : Nat) (exponent : Int) : Nat := power base exponent.toNat

theorem power_zero (base : Nat) : power base 0 = 1 := rfl

theorem power_succ (base n : Nat) : power base (n + 1) = power base n * base := rfl

theorem power_add (base m n : Nat) : power base (m + n) = power base m * power base n :=
  Nat.pow_add base m n

theorem power_pos {base : Nat} (h : 0 < base) (n : Nat) : 0 < power base n := by
  induction n with
  | zero => exact Nat.one_pos
  | succ n ih =>
    rw [power_succ]
    exact Nat.mul_pos ih h

theorem raised_natCast (base n : Nat) : raised base (n : Int) = power base n := rfl

/-- A power with an exponent that is not positive is no factor above the fraction bar. -/
theorem raised_of_nonpos {base : Nat} {e : Int} (h : e ≤ 0) : raised base e = 1 := by
  rw [raised, Int.toNat_of_nonpos h, power_zero]

theorem raised_pos {base : Nat} (h : 0 < base) (e : Int) : 0 < raised base e := power_pos h _

end PenPlotter.Numeric
