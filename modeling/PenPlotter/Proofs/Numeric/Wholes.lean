import PenPlotter.Proofs.Numeric.Halves

/-!
# The numeral of a whole number

A target with an exponent that is not negative is a whole number.  It lies in its own interval
(`holds_whole`), so among the fewest digits that read back there are none behind the point
(`exponent_shortest_whole`), and the number is written without one.

From `2 ^ 23` on the numbers of single precision are whole.  A half of this size is rounded to one
of them (`decode_large_half`), so that no point is left in its numeral (`not_mem_written_large`).
-/

namespace PenPlotter.Numeric

namespace Shortest

/-- The target of a whole number. -/
def Target.whole (m j : Nat) (narrow : Bool) : Target := ⟨m, j, narrow⟩

section Whole

variable {m j : Nat} {narrow : Bool}

/-- A whole number is compared with quarters of the last bit of the target. -/
theorem compareScaled_whole (a n : Nat) :
    compareScaled a 0 n ((Target.whole m j narrow).exponent - 2) =
      compare (a * raised 2 (2 - j)) (n * raised 2 (j - 2)) := by
  have hneg : -((j : Int) - 2) = 2 - j := by omega
  have hunit : raised 10 0 = 1 := rfl
  rw [compareScaled, Target.whole, hneg, Int.neg_zero, hunit, Nat.mul_one, Nat.mul_one]

theorem power_mul_raised (j : Nat) :
    power 2 j * raised 2 (2 - j) = 4 * raised 2 (j - 2) := by
  match j with
  | 0 => rfl
  | 1 => rfl
  | j + 2 =>
      have hone : raised 2 (2 - (j + 2 : Nat)) = 1 := raised_of_nonpos (by omega)
      have hsub : ((j + 2 : Nat) : Int) - 2 = (j : Nat) := by omega
      have hfour : power 2 2 = 4 := rfl
      rw [hone, hsub, raised_natCast, power_add, hfour, Nat.mul_one, Nat.mul_comm]

theorem holds_whole (hm : 0 < m) :
    (Target.whole m j narrow).holds ⟨m * power 2 j, 0⟩ = true := by
  have hunit : 0 < raised 2 (j - 2) := raised_pos (by decide) _
  have hvalue : m * power 2 j * raised 2 (2 - j) = 4 * m * raised 2 (j - 2) := by
    rw [Nat.mul_assoc, power_mul_raised]
    ring
  refine Target.holds_of_inside (fun n hn => ?_) ?_
  · rw [compareScaled_whole, hvalue, Nat.compare_eq_gt]
    refine Nat.mul_lt_mul_of_pos_right ?_ hunit
    show 4 * m - n < 4 * m
    omega
  · rw [compareScaled_whole, hvalue, Nat.compare_eq_lt]
    refine Nat.mul_lt_mul_of_pos_right ?_ hunit
    show 4 * m < 4 * m + 2
    omega

theorem floorAt_whole : (Target.whole m j narrow).floorAt 0 = m * power 2 j := by
  have hone : raised 2 (-(j : Int)) = 1 := raised_of_nonpos (by omega)
  have hunit : raised 10 0 = 1 := rfl
  rw [Target.floorAt, Target.whole, hone, Int.neg_zero, hunit, raised_natCast, Nat.mul_one,
    Nat.mul_one, Nat.div_one]

/-- What is found has the last place that it is looked for with. -/
theorem exponent_of_nearest? {t : Target} {tie : Tie} {e : Int} {d : Decimal}
    (h : t.nearest? tie e = some d) : d.exponent = e := by
  simp only [Target.nearest?] at h
  split at h
  · cases h
  · cases h
    rfl
  · cases h
    rfl
  · split at h
    · cases h
      rfl
    · cases h
      rfl
    · cases h
      rfl
    · split at h <;> cases h <;> rfl

/-- A whole number is found without a place behind the point. -/
theorem nearest?_whole_ne_none (hm : 0 < m) (tie : Tie) :
    (Target.whole m j narrow).nearest? tie 0 ≠ none := by
  simp only [Target.nearest?, floorAt_whole, holds_whole hm]
  split
  · simp_all
  · simp
  · simp_all
  · split <;> simp

/-- The digits of a whole number begin before the point. -/
theorem scale_whole_pos (hm : 0 < m) : 0 < (Target.whole m j narrow).scale := by
  rcases scale_cases (Target.whole m j narrow) with ⟨c, hc, hgt, -⟩ | hc
  · rw [hc]
    by_contra hneg
    have hunit : raised 10 c = 1 := raised_of_nonpos (by omega)
    have hone : raised 2 (-(j : Int)) = 1 := raised_of_nonpos (by omega)
    have hpos : 0 < m * raised 2 j * raised 10 (-c) :=
      Nat.mul_pos (Nat.mul_pos hm (raised_pos (by decide) _)) (raised_pos (by decide) _)
    rw [compareScaled, Target.whole, hunit, hone, Nat.compare_eq_gt] at hgt
    dsimp only at hgt
    omega
  · rw [hc, Target.whole]
    dsimp only
    omega

theorem exponent_stripZeros (d : Decimal) : d.exponent ≤ (stripZeros d).exponent := by
  fun_induction stripZeros d with
  | case1 d h ih =>
      dsimp only at ih
      omega
  | case2 d h => exact Int.le_refl _

/-- A whole number has no place behind the point. -/
theorem exponent_shortest_whole (hm : 0 < m) (tie : Tie) :
    0 ≤ ((Target.whole m j narrow).shortest tie).exponent := by
  refine Int.le_trans ?_ (exponent_stripZeros _)
  cases hfound : (List.range enoughDigits).findSome? fun n =>
      (Target.whole m j narrow).nearest? tie ((Target.whole m j narrow).scale - (n + 1 : Nat)) with
  | none =>
      have hexponent : ¬ (j : Int) < 0 := by omega
      rw [Option.getD_none, Target.exact, Target.whole, if_neg hexponent]
  | some d =>
      rw [Option.getD_some]
      obtain ⟨before, n, after, hrange, hd, hbefore⟩ := List.findSome?_eq_some_iff.mp hfound
      rw [exponent_of_nearest? hd]
      -- Otherwise the last place before the point would have been tried earlier.
      by_contra hneg
      have hscale : 0 < (Target.whole m j narrow).scale := scale_whole_pos hm
      obtain ⟨k, hk⟩ : ∃ k : Nat, (Target.whole m j narrow).scale - (k + 1 : Nat) = 0 :=
        ⟨((Target.whole m j narrow).scale - 1).toNat, by omega⟩
      have hkn : k < n := by omega
      have hn : n ∈ List.range enoughDigits := by
        rw [hrange]
        exact List.mem_append_right _ List.mem_cons_self
      have hmem : k ∈ before ++ n :: after := by
        rw [← hrange]
        exact List.mem_range.mpr (Nat.lt_trans hkn (List.mem_range.mp hn))
      have hordered : (before ++ n :: after).Pairwise (· < ·) := hrange ▸ List.pairwise_lt_range
      have hafter := (List.pairwise_cons.mp (List.pairwise_append.mp hordered).2.1).1
      rcases List.mem_append.mp hmem with hmem | hmem
      · have hnone := hbefore k hmem
        rw [hk] at hnone
        exact nearest?_whole_ne_none hm tie hnone
      · rcases List.mem_cons.mp hmem with rfl | hmem
        · exact Nat.lt_irrefl _ hkn
        · exact Nat.lt_asymm hkn (hafter k hmem)

end Whole

end Shortest

/-! ### Halves that are rounded -/

/-- A decimal without a place behind the point is written without the point. -/
theorem not_mem_written_decimal {d : Decimal} (h : 0 ≤ d.exponent) :
    '.' ∉ d.written messageStyle := by
  have hdigit : ('.' : Char).isDigit ≠ true := by decide
  have hstyle : messageStyle.isPositional d.order = true := rfl
  rw [Decimal.written, if_pos hstyle, Decimal.positional, if_pos h]
  intro hmem
  rcases List.mem_append.mp hmem with hmem | hmem
  · rcases List.mem_append.mp hmem with hmem | hmem
    · exact hdigit (isDigit_of_mem_digits hmem)
    · exact absurd (List.eq_of_mem_replicate hmem) (by decide)
  · exact List.not_mem_nil hmem

section Single

variable {i : Nat}

/-- The mantissa that a large half is rounded to has its full length, or one bit more. -/
theorem roundDiv_range {n g : Nat} (hlow : power 2 (g + 24) ≤ n) (hhigh : n < power 2 (g + 25)) :
    8388608 ≤ roundDiv n (2 * power 2 g) .even ∧
      roundDiv n (2 * power 2 g) .even ≤ 16777216 := by
  have hp : 0 < power 2 g := power_pos (by decide) g
  obtain ⟨hupper, hlower⟩ := @roundDiv_near n _ .even (Nat.mul_pos Nat.two_pos hp)
  have hlow' : power 2 g * 16777216 ≤ n := power_add 2 g 24 ▸ hlow
  have hhigh' : n < power 2 g * 33554432 := power_add 2 g 25 ▸ hhigh
  generalize roundDiv n (2 * power 2 g) .even = r at hupper hlower
  constructor
  · by_contra hsmall
    have hle := Nat.mul_le_mul_right (2 * power 2 g) (show r ≤ 8388607 by omega)
    omega
  · by_contra hlarge
    have hle := Nat.mul_le_mul_right (2 * power 2 g) (show 16777217 ≤ r by omega)
    omega

/-- A half from `2 ^ 23` on is rounded to a whole number. -/
theorem decode_large_half (h : 8388608 ≤ i) (hi : i < 4294967296) :
    ∃ m j : Nat, 0 < m ∧
      (Binary.ofRatio false (2 * i + 1) 2 : Single).decode = .finite false m (j : Nat) := by
  obtain ⟨g, hg⟩ : ∃ g, (2 * i + 1).log2 = g + 24 :=
    Nat.exists_eq_add_of_le' ((Nat.le_log2 (by omega)).mpr (by omega))
  have hgLarge : g < 9 := by
    have : (2 * i + 1).log2 < 33 := (Nat.log2_lt (by omega)).mpr (by omega)
    omega
  have hlow : power 2 (g + 24) ≤ 2 * i + 1 := hg ▸ Nat.log2_self_le (by omega)
  have hhigh : 2 * i + 1 < power 2 (g + 25) := by
    have := @Nat.lt_log2_self (2 * i + 1)
    rwa [hg] at this
  obtain ⟨hrlow, hrhigh⟩ := roundDiv_range hlow hhigh
  have hfull : ¬ 2 * i + 1 < 2 * power 2 g * 8388608 := by
    have hlow' : power 2 g * 16777216 ≤ 2 * i + 1 := power_add 2 g 24 ▸ hlow
    omega
  have htwo : Nat.log2 2 = 1 := by decide
  have hguess : ((2 * i + 1).log2 : Int) - (Nat.log2 2 : Nat) - (Format.single.fractionBits : Nat) =
      (g : Nat) := by
    rw [htwo, hg, Format.single]
    dsimp only
    omega
  have hone : raised 2 (-(g : Int)) = 1 := raised_of_nonpos (by omega)
  have hexponent : max (-149) (g : Int) = g := by omega
  have hbits : ((g : Int) - -149).toNat = g + 149 := by omega
  have hpattern : (Binary.ofRatio false (2 * i + 1) 2 : Single) =
      ⟨(g + 149) * 8388608 + roundDiv (2 * i + 1) (2 * power 2 g) .even⟩ := by
    rw [Binary.ofRatio, if_neg (Nat.add_one_ne_zero _)]
    simp only [hguess, hone, raised_natCast, Nat.mul_one, fractions_single, leastExponent_single,
      hfull, if_false, hexponent, hbits, infinityBits_single]
    rw [Nat.min_eq_left (by omega), Binary.ofMagnitude, if_neg Bool.false_ne_true, Nat.zero_add]
  generalize roundDiv (2 * i + 1) (2 * power 2 g) .even = r at hpattern hrlow hrhigh
  rw [hpattern]
  -- A mantissa with one bit more is that of a power of two, and is carried into the exponent.
  rcases Nat.lt_or_eq_of_le hrhigh with hr | hr
  · have hvalue : ((g + 149 : Nat) : Int) - 149 = (g : Nat) := by omega
    exact ⟨r, g, by omega, hvalue ▸ decode_pattern (by omega) hrlow hr⟩
  · have hcarry : (g + 149) * 8388608 + r = (g + 150) * 8388608 + 8388608 := by omega
    have hvalue : ((g + 150 : Nat) : Int) - 149 = (g + 1 : Nat) := by omega
    rw [hcarry]
    exact ⟨8388608, g + 1, by omega, hvalue ▸ decode_pattern (by omega) (by omega) (by omega)⟩

/-- A number with an exponent that is not negative is written without a point. -/
theorem not_mem_written_of_decode {b : Single} {m j : Nat} (hm : 0 < m)
    (hdecode : b.decode = .finite false m (j : Nat)) : '.' ∉ (b.written messageStyle).toList := by
  have hne : m ≠ 0 := by omega
  have hexponent : 0 ≤ (shortest Format.single messageStyle.tie m (j : Nat)).exponent :=
    Shortest.exponent_shortest_whole hm _
  rw [Binary.written, hdecode]
  simp only [if_neg hne, Bool.false_eq_true, if_false, List.nil_append, String.toList_ofList]
  exact not_mem_written_decimal hexponent

/-- A half from `2 ^ 23` on is written without a point. -/
theorem not_mem_written_large (h : 8388608 ≤ i) (hi : i < 4294967296) :
    '.' ∉ ((Binary.ofRatio false (2 * i + 1) 2 : Single).written messageStyle).toList := by
  obtain ⟨m, j, hm, hdecode⟩ := decode_large_half h hi
  exact not_mem_written_of_decode hm hdecode

end Single

end PenPlotter.Numeric
