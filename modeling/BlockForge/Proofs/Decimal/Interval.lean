/-
# The numbers that round to a double

The rational numbers that are nearest to a double form an interval around it. Its ends lie half-way
to the neighbours and belong to it exactly if the mantissa is even. Rounding is known from these
intervals alone: a quotient is rounded to a double exactly if it lies in the interval of this
double, no number lies in two of them, and they follow each other as the doubles do.
-/

import BlockForge.Proofs.Decimal.Nearest
import BlockForge.Proofs.Decimal.Value
import Mathlib.Order.Interval.Set.OrdConnected

namespace BlockForge.Magnitude

seal unitsPerOne

variable {x y : Magnitude} {numerator denominator : Nat} {q r : ℚ}

/-! ## The interval -/

def lowerEnd (x : Magnitude) : ℚ := (4 * x.units - reachBelow x : ℕ) / (4 * unitsPerOne)

def upperEnd (x : Magnitude) : ℚ := (4 * x.units + 2 * 2 ^ x.exponent : ℕ) / (4 * unitsPerOne)

/-- The numbers that round to a magnitude. -/
def interval (x : Magnitude) : Set ℚ :=
  if x.mantissa % 2 = 0 then Set.Icc x.lowerEnd x.upperEnd else Set.Ioo x.lowerEnd x.upperEnd

theorem ordConnected_interval (x : Magnitude) : x.interval.OrdConnected := by
  rw [interval]
  split
  · exact Set.ordConnected_Icc
  · exact Set.ordConnected_Ioo

theorem nonneg_of_mem_interval (near : q ∈ x.interval) : 0 ≤ q := by
  have ends : 0 ≤ x.lowerEnd :=
    div_nonneg (Nat.cast_nonneg _) (mul_nonneg (by norm_num) unitsPerOne_cast_pos.le)
  rw [interval] at near
  split at near
  · exact ends.trans near.1
  · exact ends.trans near.1.le

/-- A quotient rounds to a magnitude exactly if it is in the interval. -/
theorem roundsTo_iff_mem_interval (positive : 0 < denominator) :
    roundsTo x numerator denominator = true ↔ (numerator / denominator : ℚ) ∈ x.interval := by
  have four : (0 : ℚ) < 4 * unitsPerOne := mul_pos (by norm_num) unitsPerOne_cast_pos
  have width : (0 : ℚ) < denominator := by exact_mod_cast positive
  have value : numerator * (4 * unitsPerOne) = 4 * numerator * unitsPerOne := by ring
  have above (bound : ℕ) : (bound / (4 * unitsPerOne) : ℚ) ≤ numerator / denominator ↔
      bound * denominator ≤ 4 * numerator * unitsPerOne := by
    rw [div_le_div_iff₀ four width, ← value]
    norm_cast
  have below (bound : ℕ) : (numerator / denominator : ℚ) ≤ bound / (4 * unitsPerOne) ↔
      4 * numerator * unitsPerOne ≤ bound * denominator := by
    rw [div_le_div_iff₀ width four, ← value]
    norm_cast
  have reached : (if x.mantissa = leastFull ∧ 0 < x.exponent then Nat.pow 2 x.exponent
      else 2 * Nat.pow 2 x.exponent) = reachBelow x := rfl
  rw [interval]
  simp only [roundsTo, reached]
  split
  · rw [Bool.and_eq_true, decide_eq_true_eq, decide_eq_true_eq, Set.mem_Icc, lowerEnd, upperEnd,
      above, below]
    rfl
  · rw [Bool.and_eq_true, decide_eq_true_eq, decide_eq_true_eq, Set.mem_Ioo, lowerEnd, upperEnd,
      ← not_le, ← not_le, ← not_le, ← not_le, above, below]
    rfl

/-- A magnitude is one of the numbers that round to it. -/
theorem value_mem_interval (x : Magnitude) : x.value ∈ x.interval := by
  have four : (0 : ℚ) < 4 * unitsPerOne := mul_pos (by norm_num) unitsPerOne_cast_pos
  have value : x.value = (4 * x.units : ℕ) / (4 * unitsPerOne) := by
    rw [Magnitude.value, Nat.cast_mul, Nat.cast_ofNat, mul_div_mul_left _ _ (by norm_num)]
  have lower : x.lowerEnd ≤ x.value := by
    rw [value, lowerEnd, div_le_div_iff_of_pos_right four, Nat.cast_le]
    exact Nat.sub_le _ _
  have upper : x.value < x.upperEnd := by
    rw [value, upperEnd, div_lt_div_iff_of_pos_right four, Nat.cast_lt]
    exact Nat.lt_add_of_pos_right (Nat.mul_pos (by decide) (Nat.two_pow_pos _))
  rw [interval]
  split
  · exact ⟨lower, upper.le⟩
  · rename_i odd
    refine ⟨?_, upper⟩
    -- An odd mantissa is not zero, so that the interval reaches below the magnitude.
    have reach : 0 < reachBelow x := by
      rw [reachBelow]
      split
      · exact Nat.two_pow_pos _
      · exact Nat.mul_pos (by decide) (Nat.two_pow_pos _)
    have some_bits : 0 < x.mantissa := by omega
    have units : 0 < x.units := Nat.mul_pos some_bits (Nat.two_pow_pos _)
    rw [value, lowerEnd, div_lt_div_iff_of_pos_right four, Nat.cast_lt]
    omega

/-! ## Rounding -/

/-- A rounded quotient is also at most one half below the quotient, and the halves are given up
where it is odd. -/
theorem nearestEven_near {value width : Nat} (positive : 0 < width) :
    2 * value ≤ 2 * (nearestEven value width * width) + width ∧
      (nearestEven value width % 2 = 1 →
        2 * (nearestEven value width * width) < 2 * value + width ∧
          2 * value < 2 * (nearestEven value width * width) + width) := by
  have parts := Nat.div_add_mod' value width
  have rest := Nat.mod_lt value positive
  rw [nearestEven]
  split
  · omega
  · split
    · rw [Nat.add_mul]
      omega
    · rename_i notBelow notAbove
      rcases Nat.mod_two_eq_zero_or_one (value / width) with even | odd
      · rw [even, Nat.add_zero]
        omega
      · rw [odd, Nat.add_mul]
        omega

/-- The magnitude of bits, which may be moved by one place. -/
theorem cases_of_ofBits? {mantissa exponent : Nat} (bits : ofBits? mantissa exponent = some x) :
    (mantissa = mantissaBound ∧ x.mantissa = leastFull ∧ x.exponent = exponent + 1) ∨
      (mantissa ≠ mantissaBound ∧ x.mantissa = mantissa ∧ x.exponent = exponent) := by
  rw [ofBits?] at bits
  by_cases carry : mantissa = mantissaBound
  · rw [if_pos carry] at bits
    split at bits
    · cases bits
      exact .inl ⟨carry, rfl, rfl⟩
    · cases bits
  · rw [if_neg carry] at bits
    split at bits
    · cases bits
      exact .inr ⟨carry, rfl, rfl⟩
    · cases bits

/-- A quotient rounds to a magnitude if it is at most half-way to its neighbours, and nearer if
the mantissa is odd. -/
theorem roundsTo_of_bounds
    (lower : 4 * (x.units * denominator) ≤
      4 * (numerator * unitsPerOne) + reachBelow x * denominator)
    (upper : 4 * (numerator * unitsPerOne) ≤
      4 * (x.units * denominator) + 2 * (2 ^ x.exponent * denominator))
    (strict : x.mantissa % 2 = 1 →
      4 * (x.units * denominator) < 4 * (numerator * unitsPerOne) + reachBelow x * denominator ∧
        4 * (numerator * unitsPerOne) <
          4 * (x.units * denominator) + 2 * (2 ^ x.exponent * denominator)) :
    roundsTo x numerator denominator = true := by
  by_cases odd : x.mantissa % 2 = 1
  · have nonzero : x.isZero = false := by
      rw [isZero, beq_eq_false_iff_ne]
      rintro zero
      rw [zero] at odd
      cases odd
    exact roundsTo_of_near nonzero (strict odd).1 (strict odd).2
  · have reached : (if x.mantissa = leastFull ∧ 0 < x.exponent then Nat.pow 2 x.exponent
        else 2 * Nat.pow 2 x.exponent) = reachBelow x := rfl
    simp only [roundsTo, reached]
    rw [if_pos (by omega), Bool.and_eq_true, decide_eq_true_eq, decide_eq_true_eq, Nat.sub_mul,
      Nat.add_mul, Nat.mul_assoc 4 x.units, Nat.mul_assoc 4 numerator, Nat.mul_assoc 2]
    exact ⟨Nat.sub_le_iff_le_add.mpr lower, upper⟩

/-- A quotient is rounded to a magnitude only if it rounds to it. -/
theorem roundsTo_of_ofRatio? (positive : 0 < denominator)
    (rounded : ofRatio? numerator denominator = some x) :
    roundsTo x numerator denominator = true := by
  rw [ofRatio?_eq] at rounded
  have full := @mul_pow_placesOf_le numerator denominator positive
  generalize placesOf numerator denominator = places at rounded full
  have width : 0 < denominator * 2 ^ places := Nat.mul_pos positive (Nat.two_pow_pos _)
  have lower := two_mul_nearestEven_le (numerator * unitsPerOne) (denominator * 2 ^ places)
  obtain ⟨upper, strict⟩ :=
    @nearestEven_near (numerator * unitsPerOne) (denominator * 2 ^ places) width
  generalize nearestEven (numerator * unitsPerOne) (denominator * 2 ^ places) = bits
    at rounded lower upper strict
  rcases cases_of_ofBits? rounded with ⟨rfl, mantissa, exponent⟩ | ⟨-, rfl, rfl⟩
  · -- The mantissa became too long and was moved, and half as much is left of it.
    have units : x.units * denominator = mantissaBound * (denominator * 2 ^ places) := by
      rw [units_eq, mantissa, exponent, Nat.pow_succ,
        show mantissaBound = leastFull * 2 from rfl]
      ring
    have step : 2 ^ x.exponent * denominator = 2 * (denominator * 2 ^ places) := by
      rw [exponent, Nat.pow_succ]
      ring
    apply roundsTo_of_bounds
    · rw [units, reachBelow, if_pos ⟨mantissa, by omega⟩, step]
      omega
    · rw [units, step]
      omega
    · rw [mantissa]
      intro odd
      exact absurd odd (by decide)
  · have units : x.units * denominator = x.mantissa * (denominator * 2 ^ x.exponent) := by
      rw [units_eq]
      ring
    have step : 2 ^ x.exponent * denominator = denominator * 2 ^ x.exponent := Nat.mul_comm _ _
    by_cases least : x.mantissa = leastFull ∧ 0 < x.exponent
    · -- The quotient is not below the least full mantissa, where the neighbours are nearer.
      have above := full least.2.ne'
      rw [← least.1] at above
      apply roundsTo_of_bounds
      · rw [units]
        omega
      · rw [units, step]
        omega
      · rw [least.1]
        intro odd
        exact absurd odd (by decide)
    · apply roundsTo_of_bounds
      · rw [units, reachBelow, if_neg least, Nat.mul_assoc, step]
        omega
      · rw [units, step]
        omega
      · intro odd
        rw [units, reachBelow, if_neg least, Nat.mul_assoc, step]
        have inside := strict odd
        omega

/-- A quotient is rounded to a magnitude exactly if it is in the interval. -/
theorem ofRatio?_eq_some_iff (positive : 0 < denominator) :
    ofRatio? numerator denominator = some x ↔ (numerator / denominator : ℚ) ∈ x.interval := by
  rw [← roundsTo_iff_mem_interval positive]
  exact ⟨roundsTo_of_ofRatio? positive, ofRatio?_of_roundsTo positive⟩

/-- No number is in two intervals. -/
theorem eq_of_mem_interval (first : q ∈ x.interval) (second : q ∈ y.interval) : x = y := by
  have quotient : (q.num.toNat / q.den : ℚ) = q := by
    rw [← Int.cast_natCast q.num.toNat,
      Int.toNat_of_nonneg (Rat.num_nonneg.mpr (nonneg_of_mem_interval first)), Rat.num_div_den]
  rw [← quotient] at first second
  have positive : 0 < q.den := q.den_pos
  rw [← ofRatio?_eq_some_iff positive] at first second
  exact Option.some.inj (first.symm.trans second)

/-- The intervals follow each other as the magnitudes do. -/
theorem units_le_of_mem_interval (first : q ∈ x.interval) (second : r ∈ y.interval)
    (le : q ≤ r) : x.units ≤ y.units := by
  by_contra greater
  have less : y.value < x.value := by
    rw [value, value, div_lt_div_iff_of_pos_right unitsPerOne_cast_pos, Nat.cast_lt]
    exact Nat.lt_of_not_le greater
  have same : x = y := by
    rcases le_total r x.value with below | above
    · -- The second number is between the first one and the first magnitude.
      exact eq_of_mem_interval
        ((ordConnected_interval x).out first (value_mem_interval x) ⟨le, below⟩) second
    · -- The first magnitude is between the second one and the second number.
      exact eq_of_mem_interval (value_mem_interval x)
        ((ordConnected_interval y).out (value_mem_interval y) second ⟨less.le, above⟩)
  rw [same] at less
  exact lt_irrefl _ less

/-! ## Decimals -/

/-- A decimal with a power of ten as a quotient. -/
theorem mul_zpow_eq_div (significand : Nat) {power : Int} {up down : Nat}
    (difference : (up : Int) - down = power) :
    (significand * 10 ^ power : ℚ) = (significand * 10 ^ up : ℕ) / (10 ^ down : ℕ) := by
  rw [← difference, zpow_sub₀ (by norm_num), zpow_natCast, zpow_natCast, ← mul_div_assoc]
  push_cast
  rfl

/-- A decimal is read as a magnitude that is not zero exactly if it is in the interval. -/
theorem ofDecimal?_eq_some_iff (nonzero : x.isZero = false) {significand : Nat}
    (some_digit : significand ≠ 0) {power : Int} :
    ofDecimal? significand power = some x ↔ (significand * 10 ^ power : ℚ) ∈ x.interval := by
  constructor
  · intro read
    have notZero : some zero ≠ some x := by
      intro same
      rw [← Option.some.inj same] at nonzero
      cases nonzero
    rw [ofDecimal?, if_neg some_digit] at read
    split at read
    · cases read
    · split at read
      · exact absurd read notZero
      · split at read
        · rw [ofRatio?_eq_some_iff Nat.one_pos] at read
          have whole : (power.toNat : Int) - (0 : Nat) = power := by omega
          rw [mul_zpow_eq_div significand whole]
          exact read
        · have tens : 0 < 10 ^ (-power).toNat := Nat.pow_pos (by decide)
          have near := (ofRatio?_eq_some_iff tens).mp read
          have fraction : ((0 : Nat) : Int) - (-power).toNat = power := by omega
          rw [mul_zpow_eq_div significand fraction, Nat.pow_zero, Nat.mul_one]
          exact near
  · intro near
    apply ofDecimal?_of_roundsTo nonzero some_digit
    intro up down difference
    rw [roundsTo_iff_mem_interval (Nat.pow_pos (by decide)), ← mul_zpow_eq_div _ difference]
    exact near

end BlockForge.Magnitude
