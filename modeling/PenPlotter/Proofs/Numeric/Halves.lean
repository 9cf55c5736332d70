import Mathlib.Data.List.Basic
import Mathlib.Tactic.Ring
import PenPlotter.Numeric.Notation

/-!
# The numeral of a half

The number half way between the natural numbers `x` and `x + 1` is a number of single precision as
long as `x` is below `2 ^ 23`, and is then written as `x` with a five behind the point
(`written_half`).

The mantissa of a number of single precision may be longer than the half needs, so the digits are
found for `Target.half`, which has any number of spare bits.  No decimal without a place behind the
point lies in its interval (`holds_half_whole`), and one with a single place is the target itself
(`nearest?_half_tenths`).
-/

namespace PenPlotter.Numeric

namespace Shortest

/-- What is below the interval, however far it reaches down, does not lie in it. -/
theorem Target.holds_of_below {t : Target} {a : Nat} {e : Int}
    (h : ∀ n ≤ 2, compareScaled a e (4 * t.mantissa - n) (t.exponent - 2) = .lt) :
    t.holds ⟨a, e⟩ = false := by
  have hlow := h (if t.narrowBelow then 1 else 2) (by split <;> decide)
  rw [Target.holds, hlow]
  split <;> rfl

theorem Target.holds_of_above {t : Target} {a : Nat} {e : Int}
    (h : compareScaled a e (4 * t.mantissa + 2) (t.exponent - 2) = .gt) :
    t.holds ⟨a, e⟩ = false := by
  rw [Target.holds, h]
  split <;> simp

/-- What is above all that could be the lower end and below the upper end lies in the interval. -/
theorem Target.holds_of_inside {t : Target} {a : Nat} {e : Int}
    (hlow : ∀ n, 0 < n →
      compareScaled a e (4 * t.mantissa - n) (t.exponent - 2) = .gt)
    (hhigh : compareScaled a e (4 * t.mantissa + 2) (t.exponent - 2) = .lt) :
    t.holds ⟨a, e⟩ = true := by
  have hlow := hlow (if t.narrowBelow then 1 else 2) (by split <;> decide)
  rw [Target.holds, hlow, hhigh]
  split <;> rfl

/-- The target half way between `x` and `x + 1`, with a mantissa that is `k` bits longer than it
has to be. -/
def Target.half (x k : Nat) (narrow : Bool) : Target :=
  ⟨(2 * x + 1) * power 2 k, -((k : Int) + 1), narrow⟩

section Half

variable {x k : Nat} {narrow : Bool}

theorem mantissa_half : (Target.half x k narrow).mantissa = (2 * x + 1) * power 2 k := rfl

theorem exponent_half : (Target.half x k narrow).exponent = -((k : Int) + 1) := rfl

/-- What is compared with quarters of the last bit of the target. -/
theorem compareScaled_half (a : Nat) (e : Int) (n : Nat) :
    compareScaled a e n ((Target.half x k narrow).exponent - 2) =
      compare (8 * (a * raised 10 e * power 2 k)) (n * raised 10 (-e)) := by
  have hneg : -(-((k : Int) + 1) - 2) = ((k + 3 : Nat) : Int) := by omega
  have hone : raised 2 (-((k : Int) + 1) - 2) = 1 := raised_of_nonpos (by omega)
  have height : power 2 (k + 3) = power 2 k * 8 := power_add 2 k 3
  rw [exponent_half, compareScaled, hneg, raised_natCast, height, hone, Nat.mul_one]
  congr 1
  ring

/-- The target in quarters of its last bit. -/
theorem four_mul_mantissa_half :
    4 * (Target.half x k narrow).mantissa = 8 * (x * power 2 k) + 4 * power 2 k := by
  rw [mantissa_half]
  ring

/-- No whole number lies in the interval of a target half way between two. -/
theorem holds_half_whole (a : Nat) {e : Int} (he : 0 ≤ e) :
    (Target.half x k narrow).holds ⟨a, e⟩ = false := by
  have hp : 0 < power 2 k := power_pos (by decide) k
  have hunit : raised 10 (-e) = 1 := raised_of_nonpos (by omega)
  rcases Nat.lt_or_ge x (a * raised 10 e) with habove | hbelow
  · have hle := Nat.mul_le_mul_right (power 2 k) (Nat.succ_le_of_lt habove)
    rw [Nat.succ_mul] at hle
    refine Target.holds_of_above ?_
    rw [compareScaled_half, four_mul_mantissa_half, hunit, Nat.compare_eq_gt]
    omega
  · have hle := Nat.mul_le_mul_right (power 2 k) hbelow
    refine Target.holds_of_below fun n hn => ?_
    rw [compareScaled_half, four_mul_mantissa_half, hunit, Nat.compare_eq_lt]
    omega

theorem nearest?_half_whole (tie : Tie) {e : Int} (he : 0 ≤ e) :
    (Target.half x k narrow).nearest? tie e = none := by
  simp only [Target.nearest?, holds_half_whole _ he]

/-- A target half way between two whole numbers is a number of tenths. -/
theorem floorAt_half : (Target.half x k narrow).floorAt (-1) = 5 * (2 * x + 1) := by
  have hneg : -(-((k : Int) + 1)) = ((k + 1 : Nat) : Int) := by omega
  have hone : raised 2 (-((k : Int) + 1)) = 1 := raised_of_nonpos (by omega)
  have hten : raised 10 (-(-1)) = 10 := rfl
  have hunit : raised 10 (-1) = 1 := rfl
  have htenths : (2 * x + 1) * power 2 k * 1 * 10 =
      5 * (2 * x + 1) * (power 2 (k + 1) * 1) := by
    rw [power_succ]
    ring
  rw [Target.floorAt, mantissa_half, exponent_half, hneg, hone, raised_natCast, hten, hunit,
    htenths]
  exact Nat.mul_div_cancel _ (Nat.mul_pos (power_pos (by decide) _) Nat.one_pos)

theorem holds_half_tenths : (Target.half x k narrow).holds ⟨5 * (2 * x + 1), -1⟩ = true := by
  have hp : 0 < power 2 k := power_pos (by decide) k
  have hten : raised 10 (-(-1)) = 10 := rfl
  have hunit : raised 10 (-1) = 1 := rfl
  have hvalue : 8 * (5 * (2 * x + 1) * 1 * power 2 k) =
      80 * (x * power 2 k) + 40 * power 2 k := by ring
  refine Target.holds_of_inside (fun n hn => ?_) ?_
  · rw [compareScaled_half, four_mul_mantissa_half, hunit, hten, hvalue, Nat.compare_eq_gt]
    omega
  · rw [compareScaled_half, four_mul_mantissa_half, hunit, hten, hvalue, Nat.compare_eq_lt]
    omega

/-- The next tenth is farther from the target, which is a tenth itself. -/
theorem nearest?_half_tenths (tie : Tie) :
    (Target.half x k narrow).nearest? tie (-1) = some ⟨5 * (2 * x + 1), -1⟩ := by
  have hnext : compareScaled (2 * (5 * (2 * x + 1)) + 1) (-1) (Target.half x k narrow).mantissa
      ((Target.half x k narrow).exponent + 1) = .gt := by
    have hp : 0 < power 2 k := power_pos (by decide) k
    have hexponent : -((k : Int) + 1) + 1 = -(k : Int) := by omega
    have hone : raised 2 (-(k : Int)) = 1 := raised_of_nonpos (by omega)
    have hten : raised 10 (-(-1)) = 10 := rfl
    have hunit : raised 10 (-1) = 1 := rfl
    have hvalue : (2 * (5 * (2 * x + 1)) + 1) * 1 * power 2 k =
        (2 * x + 1) * power 2 k * 1 * 10 + power 2 k := by ring
    rw [compareScaled, mantissa_half, exponent_half, hexponent, hone, Int.neg_neg, raised_natCast,
      hten, hunit, Nat.compare_eq_gt, hvalue]
    omega
  simp only [Target.nearest?, floorAt_half, holds_half_tenths, hnext]
  cases (Target.half x k narrow).holds ⟨5 * (2 * x + 1) + 1, -1⟩ <;> rfl

/-- A guess that is one of the candidates has been found to be beyond the target. -/
theorem scale_cases (t : Target) :
    (∃ c, t.scale = c ∧ compareScaled 1 c t.mantissa t.exponent = .gt ∧
        c ≤ (t.mantissa.log2 + t.exponent) * 1233 / 4096 + 2) ∨
      t.scale = (t.mantissa.log2 + t.exponent) * 1233 / 4096 + 3 := by
  rw [Target.scale]
  generalize (t.mantissa.log2 + t.exponent) * 1233 / 4096 = guess
  cases hfound : [guess - 1, guess, guess + 1, guess + 2].find? fun k =>
      compareScaled 1 k t.mantissa t.exponent == .gt with
  | none => exact .inr rfl
  | some c =>
      have hbeyond : (compareScaled 1 c t.mantissa t.exponent == .gt) = true :=
        List.find?_some (p := fun k => compareScaled 1 k t.mantissa t.exponent == .gt) hfound
      refine .inl ⟨c, rfl, eq_of_beq hbeyond, ?_⟩
      have hmem := List.mem_of_find?_eq_some hfound
      simp only [List.mem_cons, List.not_mem_nil, or_false] at hmem
      omega

/-- The digits of the target begin before the point. -/
theorem scale_half_range (hlong : (Target.half x k narrow).mantissa.log2 ≤ k + 32) :
    0 ≤ (Target.half x k narrow).scale ∧ (Target.half x k narrow).scale < enoughDigits := by
  have hp : 0 < power 2 k := power_pos (by decide) k
  have hlog : k ≤ (Target.half x k narrow).mantissa.log2 := by
    have hle : power 2 k ≤ (2 * x + 1) * power 2 k := Nat.le_mul_of_pos_left _ (by omega)
    exact (Nat.le_log2 (by rw [mantissa_half]; omega)).mpr hle
  have hdigits : ((enoughDigits : Nat) : Int) = 20 := rfl
  rcases scale_cases (Target.half x k narrow) with ⟨c, hc, hgt, hle⟩ | hc
  · rw [exponent_half] at hle
    refine ⟨?_, by omega⟩
    by_contra hneg
    have hunit : raised 10 c = 1 := raised_of_nonpos (by omega)
    have hten : 10 ≤ raised 10 (-c) := by
      obtain ⟨n, hn⟩ : ∃ n : Nat, -c = (n + 1 : Nat) := ⟨(-c).toNat - 1, by omega⟩
      rw [hn, raised_natCast, power_succ]
      have : 0 < power 10 n := power_pos (by decide) n
      omega
    have hexponent : -(-((k : Int) + 1)) = ((k + 1 : Nat) : Int) := by omega
    have hone : raised 2 (-((k : Int) + 1)) = 1 := raised_of_nonpos (by omega)
    rw [compareScaled, mantissa_half, exponent_half, hunit, hexponent, hone, raised_natCast,
      power_succ, Nat.compare_eq_gt, Nat.mul_one] at hgt
    have hfar := Nat.mul_le_mul (Nat.le_mul_of_pos_left (power 2 k) (show 0 < 2 * x + 1 by omega))
      hten
    omega
  · rw [exponent_half] at hc
    omega

theorem shortest_half (tie : Tie) (hlong : (Target.half x k narrow).mantissa.log2 ≤ k + 32) :
    (Target.half x k narrow).shortest tie = ⟨5 * (2 * x + 1), -1⟩ := by
  obtain ⟨hlow, hhigh⟩ := scale_half_range hlong
  have hfound : (List.range enoughDigits).findSome? (fun n =>
      (Target.half x k narrow).nearest? tie ((Target.half x k narrow).scale - (n + 1 : Nat))) =
        some ⟨5 * (2 * x + 1), -1⟩ := by
    obtain ⟨n, hn⟩ := Int.eq_ofNat_of_zero_le hlow
    obtain ⟨m, hm⟩ : ∃ m, enoughDigits = n + (m + 1) := ⟨enoughDigits - n - 1, by omega⟩
    rw [List.findSome?_eq_some_iff]
    refine ⟨List.range n, n, (List.range m).map (n + 1 + ·), ?_, ?_, ?_⟩
    · rw [hm, List.range_add, List.range_succ_eq_map, List.map_cons, List.map_map]
      simp only [Function.comp_def, Nat.add_zero, Nat.succ_eq_add_one, Nat.add_assoc,
        Nat.add_comm 1]
    · have htenths : (Target.half x k narrow).scale - (n + 1 : Nat) = -1 := by omega
      rw [htenths, nearest?_half_tenths]
    · intro i hi
      have := List.mem_range.mp hi
      exact nearest?_half_whole tie (by omega)
  have hstrip : stripZeros ⟨5 * (2 * x + 1), -1⟩ = ⟨5 * (2 * x + 1), -1⟩ := by
    rw [stripZeros, if_neg (by dsimp only; omega)]
  simp only [Target.shortest, hfound, Option.getD_some, hstrip]

end Half

end Shortest

/-! ### Halves in single precision -/

section Single

variable {x : Nat}

/-- How many bits the mantissa of `x + 1/2` is longer than it has to be. -/
def spareBits (x : Nat) : Nat := 23 - (2 * x + 1).log2

theorem log2_spareBits (h : x < 8388608) : (2 * x + 1).log2 + spareBits x = 23 := by
  have hlog : (2 * x + 1).log2 < 24 := (Nat.log2_lt (by omega)).mpr (by omega)
  rw [spareBits]
  omega

/-- The mantissa has its full length. -/
theorem mantissa_range (h : x < 8388608) :
    8388608 ≤ (2 * x + 1) * power 2 (spareBits x) ∧
      (2 * x + 1) * power 2 (spareBits x) < 16777216 := by
  have hlow : power 2 (2 * x + 1).log2 ≤ 2 * x + 1 := Nat.log2_self_le (by omega)
  have hhigh : 2 * x + 1 < power 2 ((2 * x + 1).log2 + 1) := Nat.lt_log2_self
  have hall : power 2 (2 * x + 1).log2 * power 2 (spareBits x) = 8388608 := by
    rw [← power_add, log2_spareBits h]
    rfl
  have hp : 0 < power 2 (spareBits x) := power_pos (by decide) _
  constructor
  · exact hall ▸ Nat.mul_le_mul_right _ hlow
  · calc (2 * x + 1) * power 2 (spareBits x)
        < power 2 ((2 * x + 1).log2 + 1) * power 2 (spareBits x) :=
          Nat.mul_lt_mul_of_pos_right hhigh hp
      _ = 16777216 := by rw [power_succ, Nat.mul_right_comm, hall]

theorem fractions_single : Format.single.fractions = 8388608 := by decide

theorem leastExponent_single : Format.single.leastExponent = -149 := by decide

theorem signBit_single : Format.single.signBit = 2147483648 := by decide

theorem infinityBits_single : Format.single.infinityBits = 2139095040 := by decide

/-- The pattern of a positive number with a mantissa of full length. -/
theorem decode_pattern {e m : Nat} (he : e < 253) (hlow : 8388608 ≤ m) (hhigh : m < 16777216) :
    (⟨e * 8388608 + m⟩ : Single).decode = .finite false m (e - 149) := by
  have hmagnitude : (⟨e * 8388608 + m⟩ : Single).magnitude = e * 8388608 + m :=
    Nat.mod_eq_of_lt (by rw [signBit_single]; dsimp only; omega)
  have hnan : (⟨e * 8388608 + m⟩ : Single).isNaN = false := by
    rw [Binary.isNaN, hmagnitude, infinityBits_single, decide_eq_false_iff_not]
    omega
  have hfinite : (⟨e * 8388608 + m⟩ : Single).isFinite = true := by
    rw [Binary.isFinite, hmagnitude, infinityBits_single, decide_eq_true_iff]
    omega
  have hpositive : (⟨e * 8388608 + m⟩ : Single).isNegative = false := by
    have hzero : (e * 8388608 + m) / 2147483648 = 0 := Nat.div_eq_of_lt (by omega)
    rw [Binary.isNegative, signBit_single, hzero]
    rfl
  have hbiased : (e * 8388608 + m) / 8388608 = e + 1 := by omega
  have hfraction : 8388608 + (e * 8388608 + m) % 8388608 = m := by omega
  simp only [Binary.decode, hmagnitude, hnan, hfinite, hpositive, fractions_single,
    leastExponent_single, hbiased, hfraction, Bool.false_eq_true, if_false, if_true,
    Nat.add_one_ne_zero]
  congr 1
  omega

/-- A half of an odd number is rounded to itself. -/
theorem ofRatio_half (h : x < 8388608) :
    (Binary.ofRatio false (2 * x + 1) 2 : Single) =
      ⟨(148 - spareBits x) * 8388608 + (2 * x + 1) * power 2 (spareBits x)⟩ := by
  obtain ⟨hlow, hhigh⟩ := mantissa_range h
  have hlog := log2_spareBits h
  have htwo : Nat.log2 2 = 1 := by decide
  have hguess : ((2 * x + 1).log2 : Int) - (Nat.log2 2 : Nat) - (Format.single.fractionBits : Nat) =
      -((spareBits x + 1 : Nat) : Int) := by
    rw [htwo, Format.single]
    dsimp only
    omega
  have hfactor : raised 2 (-(-((spareBits x + 1 : Nat) : Int))) = power 2 (spareBits x) * 2 := by
    rw [Int.neg_neg, raised_natCast, power_succ]
  have hunit : raised 2 (-((spareBits x + 1 : Nat) : Int)) = 1 := raised_of_nonpos (by omega)
  have hfull : ¬ (2 * x + 1) * (power 2 (spareBits x) * 2) < 2 * 1 * 8388608 := by
    rw [← Nat.mul_assoc]
    omega
  have hexponent : max (-149) (-((spareBits x + 1 : Nat) : Int)) =
      -((spareBits x + 1 : Nat) : Int) := by omega
  have hround : roundDiv ((2 * x + 1) * (power 2 (spareBits x) * 2)) (2 * 1) .even =
      (2 * x + 1) * power 2 (spareBits x) := by
    rw [← Nat.mul_assoc]
    exact roundDiv_mul _ _ (by decide)
  have hbits : (-((spareBits x + 1 : Nat) : Int) - -149).toNat = 148 - spareBits x := by omega
  rw [Binary.ofRatio, if_neg (Nat.add_one_ne_zero _)]
  simp only [hguess, hfactor, hunit, fractions_single, leastExponent_single, hfull, if_false,
    hexponent, hround, hbits, infinityBits_single]
  rw [Nat.min_eq_left (by omega), Binary.ofMagnitude, if_neg Bool.false_ne_true, Nat.zero_add]

/-- The half between `x` and `x + 1` is a number of single precision. -/
theorem decode_half (h : x < 8388608) :
    (Binary.ofRatio false (2 * x + 1) 2 : Single).decode =
      .finite false ((2 * x + 1) * power 2 (spareBits x)) (-((spareBits x : Int) + 1)) := by
  obtain ⟨hlow, hhigh⟩ := mantissa_range h
  have hlog := log2_spareBits h
  rw [ofRatio_half h, decode_pattern (by omega) hlow hhigh]
  congr 1
  omega

/-- The half between `x` and `x + 1`, above the common denominator of its format. -/
theorem ratio_half (h : x < 8388608) : ∃ unit, 0 < unit ∧
    (Binary.ofRatio false (2 * x + 1) 2 : Single).ratio = ((2 * x + 1) * unit, 2 * unit) := by
  refine ⟨power 2 (spareBits x), power_pos (by decide) _, ?_⟩
  have hone : raised 2 (-((spareBits x : Int) + 1)) = 1 := raised_of_nonpos (by omega)
  have hneg : -(-((spareBits x : Int) + 1)) = ((spareBits x + 1 : Nat) : Int) := by omega
  rw [Binary.ratio, decode_half h]
  dsimp only
  rw [hone, Nat.mul_one, hneg, raised_natCast, power_succ, Nat.mul_comm _ 2]

/-- The tenths of a half, with a zero before the point if there is nothing else. -/
theorem positional_half (x : Nat) (pointZero : Bool) :
    (Decimal.mk (5 * (2 * x + 1)) (-1)).positional pointZero = digits x ++ ['.', '5'] := by
  have htenths : 5 * (2 * x + 1) = 10 * x + 5 := by ring
  have hpadded : List.replicate (2 - (digits (10 * x + 5)).length) '0' ++ digits (10 * x + 5) =
      digits x ++ ['5'] := by
    rcases Nat.eq_zero_or_pos x with rfl | hpos
    · rw [digits_of_lt (by decide), digits_of_lt (by decide)]
      rfl
    · have hlast : (10 * x + 5) % 10 = 5 := by omega
      have hinit : (10 * x + 5) / 10 = x := by omega
      have hsome := List.length_pos_iff.mpr (digits_ne_nil x)
      rw [digits_of_ge (by omega), hlast, hinit, List.length_append, List.length_singleton,
        Nat.sub_eq_zero_of_le (by omega)]
      rfl
  have hplaces : (-(-1 : Int)).toNat = 1 := rfl
  simp only [Decimal.positional, htenths, hplaces]
  rw [if_neg (by decide), hpadded, List.length_append, List.length_singleton, Nat.add_sub_cancel,
    List.take_left, List.drop_left]

/-- A half is written with a five behind the point. -/
theorem written_half (h : x < 8388608) :
    (Binary.ofRatio false (2 * x + 1) 2 : Single).written messageStyle = decimal x ++ ".5" := by
  obtain ⟨hlow, hhigh⟩ := mantissa_range h
  have hlong (narrow : Bool) :
      (Shortest.Target.half x (spareBits x) narrow).mantissa.log2 ≤ spareBits x + 32 := by
    have : ((2 * x + 1) * power 2 (spareBits x)).log2 < 24 :=
      (Nat.log2_lt (by omega)).mpr (by omega)
    rw [Shortest.mantissa_half]
    omega
  have hshortest : shortest Format.single messageStyle.tie ((2 * x + 1) * power 2 (spareBits x))
      (-((spareBits x : Int) + 1)) = ⟨5 * (2 * x + 1), -1⟩ :=
    Shortest.shortest_half _ (hlong _)
  rw [Binary.written, decode_half h]
  simp only [hshortest, if_neg (show ¬ (2 * x + 1) * power 2 (spareBits x) = 0 by omega)]
  have hstyle : messageStyle.isPositional (Decimal.mk (5 * (2 * x + 1)) (-1)).order = true := rfl
  rw [Decimal.written, if_pos hstyle, positional_half, decimal, if_neg Bool.false_ne_true,
    List.nil_append, String.ofList_append]

end Single

end PenPlotter.Numeric
