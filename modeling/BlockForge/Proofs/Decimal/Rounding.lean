/-
# Rounding quotients to doubles

A quotient is rounded to a multiple of a power of two that leaves it 53 binary digits. The
result is at most half of that power away, so it is off by no more than one part in `2^53`. It
exists for every quotient below the number half-way between the largest double and the next
power of two, and for a quotient of at least one it is at least one.

The bounds are those that reading a number needs: every whole number of 64 bits is rounded, and
so is every quotient of a rounded number and a power of ten.
-/

import BlockForge.Decimal.Notation
import BlockForge.Decimal.Numeral
import BlockForge.Proofs.Decimal.Shortest

namespace BlockForge.Magnitude

/-! ## Rounding to a whole number -/

theorem div_le_nearestEven (numerator denominator : Nat) :
    numerator / denominator ≤ nearestEven numerator denominator := by
  rw [nearestEven]
  split
  · exact Nat.le_refl _
  · split <;> omega

/-- A rounded quotient is at most one half above the quotient. -/
theorem two_mul_nearestEven_le (numerator denominator : Nat) :
    2 * (nearestEven numerator denominator * denominator) ≤ 2 * numerator + denominator := by
  have parts := Nat.div_add_mod' numerator denominator
  rw [nearestEven]
  split
  · omega
  · split
    · rw [Nat.add_mul]
      omega
    · rename_i notBelow notAbove
      have upper : (numerator / denominator + numerator / denominator % 2) * denominator ≤
          (numerator / denominator + 1) * denominator :=
        Nat.mul_le_mul_right _ (by omega)
      rw [Nat.add_mul _ 1] at upper
      omega

/-! ## Rounding to a magnitude -/

theorem exists_unitsPerOne_eq : ∃ places, unitsPerOne = Nat.pow 2 places := ⟨1074, rfl⟩

-- Here too the number of units is only multiplied.
seal unitsPerOne

/-- How many binary places a quotient is moved so that 53 digits are left of it. -/
def placesOf (numerator denominator : Nat) : Nat :=
  (numerator * unitsPerOne / denominator).log2 - 52

/-- One place less than the largest doubles are moved to the left. -/
def topPlaces : Nat := 2044

theorem topPlaces_eq : topPlaces = 2044 := rfl

def topStep : Nat := Nat.pow 2 topPlaces

-- As with the number of units, neither is computed, and the power is only multiplied.
seal topPlaces

theorem topStep_pos : 0 < topStep := Nat.pow_pos (by decide)

theorem two_pow_topPlaces_add (more : Nat) : 2 ^ (topPlaces + more) = topStep * 2 ^ more :=
  Nat.pow_add 2 topPlaces more

seal topStep

/-- The units half-way between the largest double and the power of two after it. -/
def unitsTooLarge : Nat := 18014398509481983 * topStep

theorem ofRatio?_eq (numerator denominator : Nat) :
    ofRatio? numerator denominator =
      ofBits? (nearestEven (numerator * unitsPerOne)
        (denominator * 2 ^ placesOf numerator denominator)) (placesOf numerator denominator) := rfl

/-- Bits are those of a magnitude unless they are too many or too far to the left. -/
theorem exists_ofBits? {mantissa exponent : Nat} (short : mantissa ≤ mantissaBound)
    (full : exponent = 0 ∨ leastFull ≤ mantissa) (near : exponent ≤ topPlaces ∨
      (exponent = topPlaces + 1 ∧ mantissa < mantissaBound)) :
    ∃ x, ofBits? mantissa exponent = some x ∧ x.units = mantissa * 2 ^ exponent := by
  have top := topPlaces_eq
  by_cases carry : mantissa = mantissaBound
  · have inside : leastFull < mantissaBound ∧ exponent + 1 ≤ 2045 ∧
        (exponent + 1 = 0 ∨ leastFull ≤ leastFull) :=
      ⟨by decide, by omega, .inr (Nat.le_refl _)⟩
    refine ⟨⟨leastFull, exponent + 1, inside⟩, ?_, ?_⟩
    · rw [ofBits?, if_pos carry]
      exact dif_pos inside
    · rw [units_eq, carry, Nat.pow_succ]
      ring
  · have inside : mantissa < mantissaBound ∧ exponent ≤ 2045 ∧
        (exponent = 0 ∨ leastFull ≤ mantissa) :=
      ⟨Nat.lt_of_le_of_ne short carry, by omega, full⟩
    refine ⟨⟨mantissa, exponent, inside⟩, ?_, rfl⟩
    rw [ofBits?, if_neg carry]
    exact dif_pos inside

/-- What is below an odd number of halves is rounded to less than the next whole number. -/
private theorem below_of_near {value large width rounded : Nat} (below : value < large)
    (half : 2 * large = 18014398509481983 * width) (near : 2 * rounded ≤ 2 * value + width) :
    rounded < mantissaBound * width := by
  rw [show mantissaBound = 9007199254740992 from rfl]
  linarith

section Ratio

variable {numerator denominator : Nat} (positive : 0 < denominator)

include positive

/-- The places leave at most 53 digits. -/
theorem lt_mul_pow_placesOf :
    numerator * unitsPerOne < mantissaBound * (denominator * 2 ^ placesOf numerator denominator) := by
  have below : numerator * unitsPerOne / denominator <
      mantissaBound * 2 ^ placesOf numerator denominator :=
    calc
      numerator * unitsPerOne / denominator <
          2 ^ ((numerator * unitsPerOne / denominator).log2 + 1) := Nat.lt_log2_self
      _ ≤ 2 ^ (53 + placesOf numerator denominator) := by
        apply Nat.pow_le_pow_right (by decide)
        unfold placesOf
        omega
      _ = mantissaBound * 2 ^ placesOf numerator denominator := Nat.pow_add 2 53 _
  have scaled := (Nat.div_lt_iff_lt_mul positive).mp below
  calc
    numerator * unitsPerOne < mantissaBound * 2 ^ placesOf numerator denominator * denominator :=
      scaled
    _ = mantissaBound * (denominator * 2 ^ placesOf numerator denominator) := by ring

/-- Where places are moved at all, they leave 53 digits. -/
theorem mul_pow_placesOf_le (moved : placesOf numerator denominator ≠ 0) :
    leastFull * (denominator * 2 ^ placesOf numerator denominator) ≤ numerator * unitsPerOne := by
  have places : placesOf numerator denominator + 52 =
      (numerator * unitsPerOne / denominator).log2 := by
    unfold placesOf at moved ⊢
    omega
  have nonzero : numerator * unitsPerOne / denominator ≠ 0 := by
    intro zero
    rw [zero, Nat.log2_zero] at places
    omega
  have least := Nat.log2_self_le nonzero
  rw [← places] at least
  have scaled := (Nat.le_div_iff_mul_le positive).mp least
  calc
    leastFull * (denominator * 2 ^ placesOf numerator denominator) =
        2 ^ (placesOf numerator denominator + 52) * denominator := by
      rw [Nat.pow_add]
      ring
    _ ≤ numerator * unitsPerOne := scaled

theorem nearestEven_le_mantissaBound :
    nearestEven (numerator * unitsPerOne) (denominator * 2 ^ placesOf numerator denominator) ≤
      mantissaBound := by
  have width : 0 < denominator * 2 ^ placesOf numerator denominator :=
    Nat.mul_pos positive (Nat.pow_pos (by decide))
  have below := @lt_mul_pow_placesOf numerator denominator positive
  have near := two_mul_nearestEven_le (numerator * unitsPerOne)
    (denominator * 2 ^ placesOf numerator denominator)
  by_contra above
  have tooFar := Nat.mul_le_mul_right (denominator * 2 ^ placesOf numerator denominator)
    (Nat.lt_of_not_le above)
  rw [Nat.succ_mul] at tooFar
  omega

theorem leastFull_le_nearestEven (moved : placesOf numerator denominator ≠ 0) :
    leastFull ≤
      nearestEven (numerator * unitsPerOne) (denominator * 2 ^ placesOf numerator denominator) :=
  Nat.le_trans
    ((Nat.le_div_iff_mul_le (Nat.mul_pos positive (Nat.pow_pos (by decide)))).mpr
      (mul_pow_placesOf_le positive moved))
    (div_le_nearestEven _ _)

/-- A quotient that is not too large is rounded on the grid of its places. -/
theorem exists_ofRatio? (bounded : numerator * unitsPerOne < unitsTooLarge * denominator) :
    ∃ x, ofRatio? numerator denominator = some x ∧
      x.units = nearestEven (numerator * unitsPerOne)
        (denominator * 2 ^ placesOf numerator denominator) *
          2 ^ placesOf numerator denominator := by
  rw [ofRatio?_eq]
  apply exists_ofBits? (nearestEven_le_mantissaBound positive)
  · rw [Classical.or_iff_not_imp_left]
    exact leastFull_le_nearestEven positive
  · by_cases near : placesOf numerator denominator ≤ topPlaces
    · exact .inl near
    right
    -- The places are bounded by the quotient, and at their bound it is below the half.
    have last : placesOf numerator denominator = topPlaces + 1 := by
      by_contra other
      have far : topPlaces + 2 ≤ placesOf numerator denominator := by omega
      have grown : topStep * 2 ^ 2 ≤ 2 ^ placesOf numerator denominator := by
        rw [← two_pow_topPlaces_add]
        exact Nat.pow_le_pow_right (by decide) far
      have least := @mul_pow_placesOf_le numerator denominator positive (by omega)
      have enough : leastFull * (denominator * (topStep * 2 ^ 2)) < unitsTooLarge * denominator :=
        Nat.lt_of_le_of_lt
          (Nat.le_trans (Nat.mul_le_mul_left _ (Nat.mul_le_mul_left _ grown)) least) bounded
      have factor : leastFull * (denominator * (topStep * 2 ^ 2)) =
          18014398509481984 * (topStep * denominator) := by ring
      rw [factor, unitsTooLarge, Nat.mul_assoc] at enough
      omega
    refine ⟨last, ?_⟩
    rw [last, two_pow_topPlaces_add]
    have half : 2 * (unitsTooLarge * denominator) =
        18014398509481983 * (denominator * (topStep * 2 ^ 1)) := by
      rw [unitsTooLarge]
      ring
    exact Nat.lt_of_mul_lt_mul_right
      (below_of_near bounded half (two_mul_nearestEven_le _ (denominator * (topStep * 2 ^ 1))))

/-- A quotient that has 53 digits is off by at most one part in `2^53`. -/
theorem units_ofRatio?_le {x : Magnitude} (rounded : ofRatio? numerator denominator = some x)
    (bounded : numerator * unitsPerOne < unitsTooLarge * denominator)
    (full : leastFull * denominator ≤ numerator * unitsPerOne) :
    mantissaBound * (x.units * denominator) ≤ (mantissaBound + 1) * (numerator * unitsPerOne) := by
  obtain ⟨y, same, units⟩ := exists_ofRatio? positive bounded
  obtain rfl : y = x := Option.some.inj (same.symm.trans rounded)
  have near := two_mul_nearestEven_le (numerator * unitsPerOne)
    (denominator * 2 ^ placesOf numerator denominator)
  have least : leastFull * (denominator * 2 ^ placesOf numerator denominator) ≤
      numerator * unitsPerOne := by
    by_cases moved : placesOf numerator denominator = 0
    · rw [moved, Nat.pow_zero, Nat.mul_one]
      exact full
    · exact mul_pow_placesOf_le positive moved
  have regrouped : y.units * denominator =
      nearestEven (numerator * unitsPerOne) (denominator * 2 ^ placesOf numerator denominator) *
        (denominator * 2 ^ placesOf numerator denominator) := by
    rw [units]
    ring
  rw [regrouped, show mantissaBound = 9007199254740992 from rfl]
  rw [show leastFull = 4503599627370496 from rfl] at least
  linarith

/-- A quotient of at least one is rounded to at least one. -/
theorem unitsPerOne_le_units {x : Magnitude} (rounded : ofRatio? numerator denominator = some x)
    (bounded : numerator * unitsPerOne < unitsTooLarge * denominator)
    (atLeastOne : denominator ≤ numerator) : unitsPerOne ≤ x.units := by
  obtain ⟨y, same, units⟩ := exists_ofRatio? positive bounded
  obtain rfl : y = x := Option.some.inj (same.symm.trans rounded)
  rw [units]
  obtain ⟨places, one⟩ : ∃ places, unitsPerOne = 2 ^ places := exists_unitsPerOne_eq
  by_cases inside : placesOf numerator denominator ≤ places
  · -- One itself is on the grid, and rounding down does not leave the grid.
    have onGrid : unitsPerOne =
        2 ^ (places - placesOf numerator denominator) * 2 ^ placesOf numerator denominator := by
      rw [← Nat.pow_add, Nat.sub_add_cancel inside, one]
    have scaled : 2 ^ (places - placesOf numerator denominator) *
        (denominator * 2 ^ placesOf numerator denominator) ≤ numerator * unitsPerOne :=
      calc
        2 ^ (places - placesOf numerator denominator) *
            (denominator * 2 ^ placesOf numerator denominator) =
            denominator * (2 ^ (places - placesOf numerator denominator) *
              2 ^ placesOf numerator denominator) := by ring
        _ = denominator * unitsPerOne := by rw [← onGrid]
        _ ≤ numerator * unitsPerOne := Nat.mul_le_mul_right _ atLeastOne
    have below := (Nat.le_div_iff_mul_le
      (Nat.mul_pos positive (Nat.pow_pos (by decide)))).mpr scaled
    calc
      unitsPerOne =
          2 ^ (places - placesOf numerator denominator) * 2 ^ placesOf numerator denominator :=
        onGrid
      _ ≤ _ := Nat.mul_le_mul_right _ (Nat.le_trans below (div_le_nearestEven _ _))
  · have moved : placesOf numerator denominator ≠ 0 := by omega
    have bits := @leastFull_le_nearestEven numerator denominator positive moved
    calc
      unitsPerOne ≤ 1 * 2 ^ placesOf numerator denominator := by
        rw [Nat.one_mul, one]
        exact Nat.pow_le_pow_right (by decide) (Nat.le_of_not_le inside)
      _ ≤ _ := Nat.mul_le_mul_right _ (Nat.le_trans (by decide) bits)

end Ratio

/-! ## What reading a number rounds -/

/-- No double is too large. -/
theorem units_lt_unitsTooLarge (x : Magnitude) : x.units < unitsTooLarge := by
  have step : 2 ^ x.exponent ≤ topStep * 2 ^ 1 := by
    rw [← two_pow_topPlaces_add]
    apply Nat.pow_le_pow_right (by decide)
    have top := topPlaces_eq
    have inside := x.canonical.2.1
    omega
  have bits : x.mantissa ≤ 9007199254740991 := Nat.le_of_lt_succ x.canonical.1
  have one : 0 < topStep := topStep_pos
  calc
    x.units = x.mantissa * 2 ^ x.exponent := units_eq x
    _ ≤ 9007199254740991 * (topStep * 2 ^ 1) := Nat.mul_le_mul bits step
    _ < unitsTooLarge := by
      rw [unitsTooLarge]
      omega

theorem pow_mul_unitsPerOne_lt : 10 ^ greatestPower * unitsPerOne < unitsTooLarge := by
  decide +kernel

/-- A number below a power of ten that is a double's magnitude is rounded. -/
theorem exists_ofNat? {n : Nat} (bounded : n ≤ 10 ^ greatestPower) : ∃ x, ofNat? n = some x := by
  obtain ⟨x, rounded, -⟩ := @exists_ofRatio? n 1 Nat.one_pos
    (by
      rw [Nat.mul_one]
      exact Nat.lt_of_le_of_lt (Nat.mul_le_mul_right _ bounded) pow_mul_unitsPerOne_lt)
  exact ⟨x, rounded⟩

/-- A whole number of 64 bits is rounded. -/
theorem exists_ofNat?_of_fits {n : Nat} (fits : n ≤ greatestUnsigned64) :
    ∃ x, ofNat? n = some x := by
  have bounded : greatestUnsigned64 ≤ 10 ^ greatestPower := by decide +kernel
  exact exists_ofNat? (Nat.le_trans fits bounded)

end BlockForge.Magnitude
