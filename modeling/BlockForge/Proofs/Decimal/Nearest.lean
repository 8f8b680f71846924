/-
# Shortest digits read correctly rounded

A reader that rounds once, to the nearest double, takes the shortest digits of a double for that
double: the digits denote a number of the interval around it, and every number of this interval is
nearest to it. The interval reaches less far below where the mantissa is at its least, since the
doubles below are closer together; there the number is rounded on the finer grid, and its mantissa
is moved by one place.
-/

import BlockForge.Proofs.Decimal.Rereading

namespace BlockForge.Magnitude

/-! ## Rounding to the nearest -/

/-- A whole number is nearest to a quotient that is at most one half away from it, and strictly less
if the number is odd. -/
theorem nearestEven_eq {value width whole : Nat} (positive : 0 < width)
    (lower : 2 * (whole * width) ≤ 2 * value + width)
    (upper : 2 * value ≤ 2 * (whole * width) + width)
    (strict : whole % 2 = 1 →
      2 * (whole * width) < 2 * value + width ∧ 2 * value < 2 * (whole * width) + width) :
    nearestEven value width = whole := by
  rcases Nat.lt_or_ge value (whole * width) with below | above
  · obtain ⟨before, rfl⟩ := Nat.exists_eq_add_one_of_ne_zero (show whole ≠ 0 by
      rintro rfl
      rw [Nat.zero_mul] at below
      exact Nat.not_lt_zero _ below)
    rw [Nat.add_mul, Nat.one_mul] at below lower upper strict
    obtain ⟨rest, rfl⟩ := Nat.exists_eq_add_of_le (show before * width ≤ value by omega)
    have small : rest < width := by omega
    have quotient : (before * width + rest) / width = before := by
      rw [Nat.mul_comm, Nat.mul_add_div positive, Nat.div_eq_of_lt small, Nat.add_zero]
    have remainder : (before * width + rest) % width = rest := by
      rw [Nat.mul_comm, Nat.mul_add_mod, Nat.mod_eq_of_lt small]
    rw [nearestEven, quotient, remainder]
    split
    · omega
    · split <;> omega
  · obtain ⟨rest, rfl⟩ := Nat.exists_eq_add_of_le above
    have small : rest < width := by omega
    have quotient : (whole * width + rest) / width = whole := by
      rw [Nat.mul_comm, Nat.mul_add_div positive, Nat.div_eq_of_lt small, Nat.add_zero]
    have remainder : (whole * width + rest) % width = rest := by
      rw [Nat.mul_comm, Nat.mul_add_mod, Nat.mod_eq_of_lt small]
    rw [nearestEven, quotient, remainder]
    split
    · rfl
    · split <;> omega

/-! ## The interval of a double -/

seal unitsPerOne

variable {x : Magnitude} {numerator denominator : Nat}

/-- A value lies at most half a step from a magnitude, which is its mantissa in steps, and less
than that if the mantissa is odd. Where the magnitudes below are twice as dense, the value lies at
most a quarter of a step below. -/
structure Near (x : Magnitude) (value step : Nat) : Prop where
  upper : 2 * value ≤ 2 * (x.mantissa * step) + step
  lower : 2 * (x.mantissa * step) ≤ 2 * value + step
  strict : x.mantissa % 2 = 1 →
    2 * (x.mantissa * step) < 2 * value + step ∧ 2 * value < 2 * (x.mantissa * step) + step
  nearer : x.mantissa = leastFull → 0 < x.exponent →
    4 * (x.mantissa * step) ≤ 4 * value + step

/-- What it means that a quotient rounds to a magnitude, with the bounds multiplied out. -/
theorem near_of_roundsTo (rounds : roundsTo x numerator denominator = true) :
    Near x (numerator * unitsPerOne) (denominator * 2 ^ x.exponent) := by
  have product : x.units * denominator = x.mantissa * (denominator * 2 ^ x.exponent) := by
    rw [units_eq]
    ring
  have width : Nat.pow 2 x.exponent * denominator = denominator * 2 ^ x.exponent :=
    Nat.mul_comm _ _
  by_cases least : x.mantissa = leastFull ∧ 0 < x.exponent
  · have even : x.mantissa % 2 = 0 := by
      rw [least.1]
      rfl
    simp only [roundsTo, if_pos least, if_pos even, Nat.sub_mul, Nat.add_mul, Nat.mul_assoc,
      product, width, Bool.and_eq_true, decide_eq_true_eq] at rounds
    obtain ⟨lower, upper⟩ := rounds
    exact ⟨by omega, by omega, by omega, by omega⟩
  · have other : x.mantissa = leastFull → ¬ 0 < x.exponent := fun full moved =>
      least ⟨full, moved⟩
    simp only [roundsTo, if_neg least, Nat.sub_mul, Nat.add_mul, Nat.mul_assoc,
      product, width] at rounds
    split at rounds
    · rw [Bool.and_eq_true, decide_eq_true_eq, decide_eq_true_eq] at rounds
      obtain ⟨lower, upper⟩ := rounds
      exact ⟨by omega, by omega, by omega, fun full moved => absurd moved (other full)⟩
    · rw [Bool.and_eq_true, decide_eq_true_eq, decide_eq_true_eq] at rounds
      obtain ⟨lower, upper⟩ := rounds
      exact ⟨by omega, by omega, by omega, fun full moved => absurd moved (other full)⟩

/-- The places of a quotient are the only ones that leave it 53 digits, or fewer where there are
none. -/
theorem placesOf_eq {numerator denominator places : Nat} (positive : 0 < denominator)
    (below : numerator * unitsPerOne < mantissaBound * (denominator * 2 ^ places))
    (above : places = 0 ∨ leastFull * (denominator * 2 ^ places) ≤ numerator * unitsPerOne) :
    placesOf numerator denominator = places := by
  have short := @lt_mul_pow_placesOf numerator denominator positive
  have full := @mul_pow_placesOf_le numerator denominator positive
  generalize placesOf numerator denominator = moved at short full
  simp only [leastFull, mantissaBound] at below above short full
  have double (more : Nat) : denominator * 2 ^ (more + 1) = 2 * (denominator * 2 ^ more) := by
    rw [Nat.pow_succ]
    ring
  rcases Nat.lt_trichotomy moved places with less | same | greater
  · have farther : denominator * 2 ^ (moved + 1) ≤ denominator * 2 ^ places :=
      Nat.mul_le_mul_left _ (Nat.pow_le_pow_right (by decide) less)
    rw [double] at farther
    omega
  · exact same
  · have farther : denominator * 2 ^ (places + 1) ≤ denominator * 2 ^ moved :=
      Nat.mul_le_mul_left _ (Nat.pow_le_pow_right (by decide) greater)
    have enough := full (by omega)
    rw [double] at farther
    omega

/-- A value that is not below the least full mantissa is rounded on the grid of its magnitude. -/
theorem ofRatio?_of_full (positive : 0 < denominator)
    (near : Near x (numerator * unitsPerOne) (denominator * 2 ^ x.exponent))
    (full : x.exponent = 0 ∨
      leastFull * (denominator * 2 ^ x.exponent) ≤ numerator * unitsPerOne) :
    ofRatio? numerator denominator = some x := by
  have bits := x.canonical.1
  have step : 0 < denominator * 2 ^ x.exponent :=
    Nat.mul_pos positive (Nat.pow_pos (by decide))
  have below : numerator * unitsPerOne < mantissaBound * (denominator * 2 ^ x.exponent) := by
    have upper := near.upper
    have more : (x.mantissa + 1) * (denominator * 2 ^ x.exponent) ≤
        mantissaBound * (denominator * 2 ^ x.exponent) := Nat.mul_le_mul_right _ bits
    rw [Nat.succ_mul] at more
    omega
  rw [ofRatio?_eq, placesOf_eq positive below full,
    nearestEven_eq step near.lower near.upper near.strict, ofBits?, if_neg (Nat.ne_of_lt bits)]
  exact dif_pos x.canonical

/-- Only a magnitude of the least full mantissa is near to a value below that mantissa. -/
theorem Near.mantissa_eq_leastFull {value step : Nat} (near : Near x value step)
    (full : leastFull ≤ x.mantissa) (positive : 0 < step) (small : value < leastFull * step) :
    x.mantissa = leastFull := by
  by_contra other
  have lower := near.lower
  have more : (leastFull + 1) * step ≤ x.mantissa * step :=
    Nat.mul_le_mul_right _ (Nat.lt_of_le_of_ne full (Ne.symm other))
  rw [Nat.succ_mul] at more
  omega

/-- A value below the least full mantissa is rounded up to it, on the finer grid below. -/
theorem ofRatio?_of_small (positive : 0 < denominator)
    (near : Near x (numerator * unitsPerOne) (denominator * 2 ^ x.exponent))
    (moved : x.exponent ≠ 0)
    (small : numerator * unitsPerOne < leastFull * (denominator * 2 ^ x.exponent)) :
    ofRatio? numerator denominator = some x := by
  obtain ⟨places, last⟩ := Nat.exists_eq_add_one_of_ne_zero moved
  have half : 0 < denominator * 2 ^ places := Nat.mul_pos positive (Nat.pow_pos (by decide))
  have double : denominator * 2 ^ x.exponent = 2 * (denominator * 2 ^ places) := by
    rw [last, Nat.pow_succ]
    ring
  rw [double] at near small
  have least := near.mantissa_eq_leastFull (x.canonical.2.2.resolve_left moved) (by omega) small
  have reach := near.nearer least (Nat.pos_of_ne_zero moved)
  rw [least] at reach
  have whole : mantissaBound * (denominator * 2 ^ places) =
      leastFull * (2 * (denominator * 2 ^ places)) := by ring
  have scaled : leastFull * (2 * (denominator * 2 ^ places)) =
      2 * (leastFull * (denominator * 2 ^ places)) := by ring
  have few : denominator * 2 ^ places ≤ leastFull * (denominator * 2 ^ places) :=
    Nat.le_mul_of_pos_left _ (by decide)
  have onFiner : placesOf numerator denominator = places := by
    apply placesOf_eq positive
    · omega
    · right
      omega
  have rounded : nearestEven (numerator * unitsPerOne) (denominator * 2 ^ places) =
      mantissaBound := by
    apply nearestEven_eq half
    · omega
    · omega
    · intro odd
      exact absurd odd (by decide)
  rw [ofRatio?_eq, onFiner, rounded, ofBits?, if_pos rfl]
  obtain ⟨mantissa, exponent, canonical⟩ := x
  cases least
  cases last
  exact dif_pos canonical

/-- A quotient that rounds to a magnitude is rounded to it. -/
theorem ofRatio?_of_roundsTo (positive : 0 < denominator)
    (rounds : roundsTo x numerator denominator = true) :
    ofRatio? numerator denominator = some x := by
  have near := near_of_roundsTo rounds
  by_cases full : x.exponent = 0 ∨
      leastFull * (denominator * 2 ^ x.exponent) ≤ numerator * unitsPerOne
  · exact ofRatio?_of_full positive near full
  · rw [not_or, Nat.not_le] at full
    exact ofRatio?_of_small positive near full.1 full.2

/-! ## Shortest digits -/

/-- A quotient may be expanded. -/
theorem roundsTo_mul (x : Magnitude) (numerator denominator : Nat) {factor : Nat}
    (positive : 0 < factor) :
    roundsTo x (numerator * factor) (denominator * factor) = roundsTo x numerator denominator := by
  have value : 4 * numerator * factor * unitsPerOne = 4 * numerator * unitsPerOne * factor := by
    ring
  simp only [roundsTo, ← Nat.mul_assoc, value, Nat.mul_le_mul_right_iff positive,
    Nat.mul_lt_mul_right positive]

/-- The step of a grid is a power of ten or one part of it. -/
theorem exists_gridStep_eq (x : Magnitude) (count : Nat) :
    ∃ up down : Nat, gridStep x count = (10 ^ up, 10 ^ down) ∧
      (up : Int) - down = pointOf x - count := by
  rw [gridStep]
  split
  · exact ⟨(pointOf x - count).toNat, 0, rfl, by omega⟩
  · exact ⟨0, (-(pointOf x - count)).toNat, rfl, by omega⟩

/-- The number that the shortest digits denote rounds to the magnitude. Its power of ten is given
as a difference, so that it is a quotient of natural numbers. -/
theorem shortest_roundsTo {x : Magnitude} (nonzero : x.isZero = false) {tie : Tie} {up down : Nat}
    (power : (up : Int) - down = (x.shortest tie).point - (x.shortest tie).digits.length) :
    roundsTo x (digitsValue (x.shortest tie).digits * 10 ^ up) (10 ^ down) = true := by
  obtain ⟨tried, n, -, stands, digits⟩ := digitsFrom_eq_pointDigits nonzero tie
    (show 16 + 0 = 16 from rfl)
  rw [shortest, if_neg (by simp [nonzero]), digits, pointDigits] at power ⊢
  obtain ⟨dropped, counted, value⟩ := exists_digitsValue_mul_pow n
  obtain ⟨right, left, step, point⟩ := exists_gridStep_eq x (tried + 1)
  have rounds := (onGrid?_point stands).2
  dsimp only at power ⊢
  generalize digitsValue ((Nat.toDigits 10 n).reverse.dropWhile (· == '0')).reverse = kept
    at value ⊢
  have tens (places : Nat) : 0 < 10 ^ places := Nat.pow_pos (by decide)
  rw [step, ← value, ← roundsTo_mul x _ _ (tens down)] at rounds
  rw [← roundsTo_mul x _ _ (tens left), ← rounds]
  congr 1
  · rw [Nat.mul_assoc, ← Nat.pow_add, Nat.mul_assoc, Nat.mul_assoc, ← Nat.pow_add, ← Nat.pow_add]
    congr 2
    omega
  · exact Nat.mul_comm _ _

/-! ## Reading decimals -/

/-- No double is so large that a decimal next to it is past `10^310`. -/
theorem digitCount_le_of_roundsTo {x : Magnitude} (nonzero : x.isZero = false) {significand : Nat}
    (positive : significand ≠ 0) {up down : Nat}
    (rounds : roundsTo x (significand * 10 ^ up) (10 ^ down) = true) :
    digitCount significand + up ≤ 310 + down := by
  by_contra far
  have step : 2 ^ x.exponent ≤ x.units := by
    rw [units_eq]
    apply Nat.le_mul_of_pos_left
    exact Nat.pos_of_ne_zero (by simpa [isZero] using nonzero)
  have top : greatestPower = 308 := rfl
  have large : 10 ^ (greatestPower + 2) * 10 ^ down ≤ significand * 10 ^ up :=
    calc
      10 ^ (greatestPower + 2) * 10 ^ down = 10 ^ (greatestPower + 2 + down) :=
        (Nat.pow_add 10 _ down).symm
      _ ≤ 10 ^ (digitCount significand - 1 + up) :=
        Nat.pow_le_pow_right (by decide) (by omega)
      _ = 10 ^ (digitCount significand - 1) * 10 ^ up := Nat.pow_add 10 _ up
      _ ≤ significand * 10 ^ up := Nat.mul_le_mul_right _ (pow_digitCount_le positive)
  have bound : 6 * unitsTooLarge < 4 * (10 ^ (greatestPower + 2) * unitsPerOne) := by
    have tooLarge := unitsTooLarge_lt_pow
    rw [Nat.pow_succ 10 (greatestPower + 1), Nat.mul_right_comm]
    omega
  have inside : 6 * unitsTooLarge * 10 ^ down <
      4 * (10 ^ (greatestPower + 2) * 10 ^ down * unitsPerOne) :=
    calc
      6 * unitsTooLarge * 10 ^ down < 4 * (10 ^ (greatestPower + 2) * unitsPerOne) * 10 ^ down :=
        Nat.mul_lt_mul_of_pos_right bound (Nat.pow_pos (by decide))
      _ = 4 * (10 ^ (greatestPower + 2) * 10 ^ down * unitsPerOne) := by ring
  have reach : (4 * x.units + 2 * 2 ^ x.exponent) * 10 ^ down ≤ 6 * unitsTooLarge * 10 ^ down := by
    have small := units_lt_unitsTooLarge x
    apply Nat.mul_le_mul_right
    omega
  have near := le_of_roundsTo rounds
  have grown := Nat.mul_le_mul_right unitsPerOne large
  omega

theorem two_mul_unitsPerOne_lt : 2 * unitsPerOne < 10 ^ 331 := by
  decide +kernel

/-- No double but zero is so small that a decimal next to it is below `10^-330`. -/
theorem le_digitCount_of_roundsTo {x : Magnitude} (nonzero : x.isZero = false) {significand : Nat}
    {up down : Nat} (rounds : roundsTo x (significand * 10 ^ up) (10 ^ down) = true) :
    down ≤ digitCount significand + up + 330 := by
  by_contra far
  have lower := (near_of_roundsTo rounds).lower
  have mantissa : 1 ≤ x.mantissa := Nat.pos_of_ne_zero (by simpa [isZero] using nonzero)
  have step : 10 ^ down ≤ 10 ^ down * 2 ^ x.exponent :=
    Nat.le_mul_of_pos_right _ (Nat.pow_pos (by decide))
  have whole := Nat.mul_le_mul_right (10 ^ down * 2 ^ x.exponent) mantissa
  have small : significand * 10 ^ up * 10 ^ 331 ≤ 10 ^ down :=
    calc
      significand * 10 ^ up * 10 ^ 331 ≤ 10 ^ digitCount significand * 10 ^ up * 10 ^ 331 :=
        Nat.mul_le_mul_right _ (Nat.mul_le_mul_right _ (Nat.le_of_lt (lt_pow_digitCount _)))
      _ = 10 ^ (digitCount significand + up + 331) := by rw [Nat.pow_add, Nat.pow_add]
      _ ≤ 10 ^ down := Nat.pow_le_pow_right (by decide) (by omega)
  have twice : significand * 10 ^ up * (2 * unitsPerOne) =
      2 * (significand * 10 ^ up * unitsPerOne) := by ring
  have reach : 10 ^ down ≤ significand * 10 ^ up * (2 * unitsPerOne) := by omega
  have value : 0 < significand * 10 ^ up := by
    apply Nat.pos_of_ne_zero
    intro zero
    rw [zero, Nat.zero_mul] at reach
    exact absurd (Nat.pow_pos (by decide)) (Nat.not_lt_of_le reach)
  have tens := Nat.le_of_mul_le_mul_left (Nat.le_trans small reach) value
  exact absurd two_mul_unitsPerOne_lt (Nat.not_lt_of_le tens)

/-- A decimal that rounds to a magnitude is read as it: no double is so large or so small that a
decimal next to it is set aside for its power of ten. -/
theorem ofDecimal?_of_roundsTo {x : Magnitude} (nonzero : x.isZero = false) {significand : Nat}
    (some_digit : significand ≠ 0) {power : Int}
    (rounds : ∀ up down : Nat, (up : Int) - down = power →
      roundsTo x (significand * 10 ^ up) (10 ^ down) = true) :
    ofDecimal? significand power = some x := by
  have near := rounds power.toNat (-power).toNat (by omega)
  have above := digitCount_le_of_roundsTo nonzero some_digit near
  have below := le_digitCount_of_roundsTo nonzero near
  have notLarge : ¬ 310 < (digitCount significand : Int) + power := by omega
  have notSmall : ¬ (digitCount significand : Int) + power < -330 := by omega
  rw [ofDecimal?, if_neg some_digit, if_neg notLarge, if_neg notSmall]
  split
  · exact ofRatio?_of_roundsTo Nat.one_pos (rounds power.toNat 0 (by omega))
  · have scaled := rounds 0 (-power).toNat (by omega)
    rw [Nat.pow_zero, Nat.mul_one] at scaled
    exact ofRatio?_of_roundsTo (Nat.pow_pos (by decide)) scaled

theorem eq_zero_of_isZero {x : Magnitude} (isZero : x.isZero = true) : x = zero := by
  obtain ⟨mantissa, exponent, canonical⟩ := x
  have mantissaZero : mantissa = 0 := by simpa [Magnitude.isZero] using isZero
  subst mantissaZero
  have exponentZero : exponent = 0 := canonical.2.2.resolve_right (by decide)
  subst exponentZero
  rfl

/-- Shortest digits are read as the magnitude they stand for, also with zeros after them that the
power of ten makes up for. -/
theorem ofDecimal?_shortest (x : Magnitude) {tie : Tie} {zeros : Nat} {power : Int}
    (placed : power + zeros = (x.shortest tie).point - (x.shortest tie).digits.length) :
    ofDecimal? (digitsValue (x.shortest tie).digits * 10 ^ zeros) power = some x := by
  by_cases isZero : x.isZero = true
  · rw [shortest, if_pos isZero, eq_zero_of_isZero isZero]
    rw [ofDecimal?, if_pos (by rw [show digitsValue ['0'] = 0 from rfl, Nat.zero_mul])]
  · have nonzero : x.isZero = false := by simpa using isZero
    apply ofDecimal?_of_roundsTo nonzero
    · exact Nat.mul_ne_zero (shortest_value nonzero tie).1 (Nat.pow_pos (by decide)).ne'
    · intro up down difference
      rw [Nat.mul_assoc, ← Nat.pow_add]
      apply shortest_roundsTo nonzero
      omega

end BlockForge.Magnitude
