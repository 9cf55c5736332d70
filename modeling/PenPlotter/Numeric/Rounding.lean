/-!
# Rounding quotients

`roundDiv` rounds the quotient of two natural numbers to a nearest natural number; a quotient half
way between two of them goes to the even one or to the larger one.  What is rounded lies within
half a unit of the exact quotient (`roundDiv_near`), and an exact quotient stays as it is
(`roundDiv_mul`).
-/

namespace PenPlotter.Numeric

/-- Where a value half way between two candidates goes. -/
inductive Tie where
  /-- To the even one. -/
  | even
  /-- To the one farther from zero. -/
  | away
  deriving DecidableEq, Repr

/-- The quotient rounded to a nearest natural number. -/
def roundDiv (num den : Nat) (tie : Tie) : Nat :=
  let q := num / den
  let r := num % den
  if 2 * r < den then q
  else if 2 * r > den then q + 1
  else
    match tie with
    | .even => if q % 2 = 0 then q else q + 1
    | .away => q + 1

/-- The rounded quotient is within half a unit of the exact one. -/
theorem roundDiv_near {num den : Nat} (tie : Tie) (h : 0 < den) :
    2 * (roundDiv num den tie * den) ≤ 2 * num + den ∧
      2 * num ≤ 2 * (roundDiv num den tie * den) + den := by
  have hsum : den * (num / den) + num % den = num := Nat.div_add_mod num den
  have hlt : num % den < den := Nat.mod_lt _ h
  have hq : num / den * den = den * (num / den) := Nat.mul_comm _ _
  have hq' : (num / den + 1) * den = den * (num / den) + den := by
    rw [Nat.add_mul, Nat.one_mul, hq]
  unfold roundDiv
  simp only
  split
  · omega
  · split
    · omega
    · cases tie with
      | away => simp only; omega
      | even => simp only; split <;> omega

/-- An exact quotient stays as it is. -/
theorem roundDiv_mul (q : Nat) {den : Nat} (tie : Tie) (h : 0 < den) :
    roundDiv (q * den) den tie = q := by
  unfold roundDiv
  simp only [Nat.mul_mod_left, Nat.mul_div_cancel q h]
  rw [if_pos (by omega)]

end PenPlotter.Numeric
