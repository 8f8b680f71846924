/-
# Shortest digits taken in again

A double is written with its shortest digits, and a reader that rounds the digits, the power of
ten and their product one after the other does not always come back to it. What it comes to is
defined here from the digits alone, and it is always finite: the digits are few enough to be
counted in 64 bits, and the number they denote lies half a step around the double, so that the
three roundings cannot carry it past the largest one. The argument leaves a margin of a step and a
half, which the two largest doubles do not have; for these the digits are computed.
-/

import BlockForge.Proofs.Decimal.Rounding

namespace BlockForge

/-! ## The value of digits -/

theorem digitsValue_eq (digits : List Char) : digitsValue digits = Nat.ofDigitChars 10 digits 0 := rfl

theorem digitsValue_append_zeros (digits : List Char) (count : Nat) :
    digitsValue (digits ++ List.replicate count '0') = digitsValue digits * 10 ^ count := by
  rw [digitsValue_eq, Nat.ofDigitChars_append, Nat.ofDigitChars_replicate_zero, Nat.mul_comm]
  rfl

theorem digitsValue_toDigits (n : Nat) : digitsValue (Nat.toDigits 10 n) = n :=
  Nat.ofDigitChars_ten_toDigits

/-- A digit before others counts as often as these can be counted. -/
theorem digitsValue_cons (c : Char) (digits : List Char) :
    digitsValue (c :: digits) = 10 ^ digits.length * (c.toNat - '0'.toNat) + digitsValue digits := by
  rw [digitsValue_eq, Nat.ofDigitChars_cons, Nat.ofDigitChars_eq_ofDigitChars_zero]
  simp only [Nat.mul_zero, Nat.zero_add]
  rfl

theorem digit_le_nine {c : Char} (digit : c.isDigit) : c.toNat - '0'.toNat ≤ 9 := by
  simp only [Char.isDigit, Bool.and_eq_true, decide_eq_true_eq] at digit
  have upper : c.toNat ≤ 57 := digit.2
  rw [show '0'.toNat = 48 from rfl]
  omega

theorem digitsValue_lt {digits : List Char} (all : ∀ c ∈ digits, c.isDigit) :
    digitsValue digits < 10 ^ digits.length := by
  induction digits with
  | nil => exact Nat.one_pos
  | cons c rest ih =>
      have first := digit_le_nine (all c List.mem_cons_self)
      have others := ih fun d held => all d (List.mem_cons_of_mem c held)
      rw [digitsValue_cons, List.length_cons, Nat.pow_succ]
      have nine := Nat.mul_le_mul_left (10 ^ rest.length) first
      omega

/-- The digits of a number do not start with a zero. -/
theorem toDigits_head_ne_zero {n : Nat} (nonzero : n ≠ 0) {c : Char} {rest : List Char}
    (digits : Nat.toDigits 10 n = c :: rest) : c ≠ '0' := by
  rintro rfl
  have all : ∀ d ∈ Nat.toDigits 10 n, d.isDigit := fun d held =>
    Nat.isDigit_of_mem_toDigits (by decide) (by decide) held
  have value := digitsValue_toDigits n
  rw [digits] at all value
  rw [digitsValue_cons, Nat.sub_self, Nat.mul_zero, Nat.zero_add] at value
  have small : n < 10 ^ rest.length := by
    rw [← value]
    exact digitsValue_lt fun d held => all d (List.mem_cons_of_mem _ held)
  cases rest with
  | nil => exact nonzero (Nat.lt_one_iff.mp small)
  | cons d rest =>
      have counted := (Nat.length_toDigits_le_iff (by decide) (Nat.succ_pos _)).mpr small
      rw [digits, List.length_cons] at counted
      exact Nat.not_succ_le_self _ counted

/-- A row of digits is what is left of it when zeros at its end are dropped, and these zeros. -/
theorem dropped_append_zeros (digits : List Char) :
    (digits.reverse.dropWhile (· == '0')).reverse ++
      (digits.reverse.takeWhile (· == '0')).reverse = digits := by
  rw [← List.reverse_append, List.takeWhile_append_dropWhile, List.reverse_reverse]

/-- The value of digits does not change when the zeros at their end become a power of ten. -/
theorem exists_digitsValue_mul_pow (n : Nat) :
    ∃ zeros, (((Nat.toDigits 10 n).reverse.dropWhile (· == '0')).reverse.length + zeros =
        (Nat.toDigits 10 n).length) ∧
      digitsValue ((Nat.toDigits 10 n).reverse.dropWhile (· == '0')).reverse * 10 ^ zeros = n := by
  have parts := dropped_append_zeros (Nat.toDigits 10 n)
  have zeros : ((Nat.toDigits 10 n).reverse.takeWhile (· == '0')).reverse =
      List.replicate ((Nat.toDigits 10 n).reverse.takeWhile (· == '0')).length '0' := by
    rw [List.eq_replicate_iff, List.length_reverse]
    refine ⟨rfl, fun c held => ?_⟩
    simpa using List.mem_takeWhile_imp (List.mem_reverse.mp held)
  refine ⟨((Nat.toDigits 10 n).reverse.takeWhile (· == '0')).length, ?_, ?_⟩
  · have counted := congrArg List.length parts
    rwa [List.length_append, @List.length_reverse _ (List.takeWhile _ _)] at counted
  · rw [← digitsValue_append_zeros, ← zeros, parts, digitsValue_toDigits]

namespace Magnitude

/-! ## The size of shortest digits -/

theorem lt_pow_digitCount (n : Nat) : n < 10 ^ digitCount n := by
  induction n using Nat.strong_induction_on with
  | _ n ih =>
      rw [digitCount]
      split
      · omega
      · have shorter := ih (n / 10) (by omega)
        rw [Nat.pow_succ]
        omega

/-- One multiplication by ten less does not reach the denominator. -/
theorem mul_pow_leadingZeros_lt {denominator numerator : Nat} (below : numerator < denominator)
    (fuel : Nat) :
    numerator * 10 ^ (leadingZeros denominator fuel numerator - 1) < denominator := by
  induction fuel generalizing numerator with
  | zero => simpa [leadingZeros] using below
  | succ fuel ih =>
      rw [leadingZeros, if_neg (by omega), Nat.add_sub_cancel]
      by_cases reached : denominator ≤ 10 * numerator
      · cases fuel with
        | zero => simpa [leadingZeros] using below
        | succ fuel => simpa [leadingZeros, reached] using below
      · have further := ih (Nat.lt_of_not_le reached)
        cases counted : leadingZeros denominator fuel (10 * numerator) with
        | zero => simpa using below
        | succ more =>
            rw [counted, Nat.add_sub_cancel] at further
            rw [Nat.pow_succ]
            linarith

seal unitsPerOne

/-- The point is not too far to the left: the number is less than its power of ten. The
exponent is given as a difference, so that no side is a fraction. -/
theorem units_mul_pow_lt (x : Magnitude) (up down : Nat) (power : (up : Int) - down = pointOf x) :
    x.units * 10 ^ down < unitsPerOne * 10 ^ up := by
  by_cases whole : unitsPerOne ≤ x.units
  · rw [pointOf, if_pos whole] at power
    have exponent : up = digitCount x.floor + down := by omega
    have below : x.units < 10 ^ digitCount x.floor * unitsPerOne :=
      (Nat.div_lt_iff_lt_mul unitsPerOne_pos).mp (lt_pow_digitCount x.floor)
    calc
      x.units * 10 ^ down < 10 ^ digitCount x.floor * unitsPerOne * 10 ^ down :=
        Nat.mul_lt_mul_of_pos_right below (Nat.pow_pos (by decide))
      _ = unitsPerOne * 10 ^ up := by
        rw [exponent, Nat.pow_add]
        ring
  · rw [pointOf, if_neg whole] at power
    have below := mul_pow_leadingZeros_lt (Nat.lt_of_not_le whole) 400
    have counted : leadingZeros unitsPerOne 400 x.units ≠ 0 := by
      rw [leadingZeros, if_neg whole]
      exact Nat.succ_ne_zero _
    have exponent : down = leadingZeros unitsPerOne 400 x.units - 1 + up := by omega
    calc
      x.units * 10 ^ down =
          x.units * 10 ^ (leadingZeros unitsPerOne 400 x.units - 1) * 10 ^ up := by
        rw [exponent, Nat.pow_add]
        ring
      _ < unitsPerOne * 10 ^ up := Nat.mul_lt_mul_of_pos_right below (Nat.pow_pos (by decide))

/-- A grid of `count` digits has less than `10^count` steps below the number. -/
theorem lower_lt_pow (x : Magnitude) (count : Nat) :
    x.units * (gridStep x count).2 / (unitsPerOne * (gridStep x count).1) < 10 ^ count := by
  apply Nat.div_lt_of_lt_mul
  rw [gridStep]
  split
  · rename_i whole
    have below := units_mul_pow_lt x (count + (pointOf x - count).toNat) 0 (by omega)
    calc
      x.units * 1 < unitsPerOne * 10 ^ (count + (pointOf x - count).toNat) := below
      _ = unitsPerOne * 10 ^ (pointOf x - count).toNat * 10 ^ count := by
        rw [Nat.pow_add]
        ring
  · rename_i fraction
    have below := units_mul_pow_lt x count (-(pointOf x - count)).toNat (by omega)
    calc
      x.units * 10 ^ (-(pointOf x - count)).toNat < unitsPerOne * 10 ^ count := below
      _ = unitsPerOne * 1 * 10 ^ count := by ring

/-- The point that is chosen is one of the two neighbours, and it serves. -/
theorem chosenPoint_serves {tie : Tie} {lower remainder width n : Nat}
    {lowerServes upperServes : Bool}
    (chosen : chosenPoint tie lower remainder width lowerServes upperServes = some n) :
    (n = lower ∧ lowerServes = true) ∨ (n = lower + 1 ∧ upperServes = true) := by
  cases tie <;> grind [chosenPoint]

/-- A point that stands for a number has no more digits than its grid, or is the power of ten
after these, and it rounds to the number. -/
theorem onGrid?_point {tie : Tie} {x : Magnitude} {count n : Nat}
    (stands : onGrid? tie x count = some n) :
    n ≤ 10 ^ count ∧ roundsTo x (n * (gridStep x count).1) (gridStep x count).2 = true := by
  rw [onGrid?_eq_chosenPoint] at stands
  have few := lower_lt_pow x count
  rcases chosenPoint_serves stands with ⟨rfl, serves⟩ | ⟨rfl, serves⟩
  · exact ⟨Nat.le_of_lt few, serves⟩
  · exact ⟨few, serves⟩

theorem le_of_roundsTo {x : Magnitude} {numerator denominator : Nat}
    (rounds : roundsTo x numerator denominator = true) :
    4 * (numerator * unitsPerOne) ≤ (4 * x.units + 2 * 2 ^ x.exponent) * denominator := by
  simp only [roundsTo] at rounds
  rw [← Nat.mul_assoc]
  split at rounds
  · rw [Bool.and_eq_true, decide_eq_true_eq, decide_eq_true_eq] at rounds
    exact rounds.2
  · rw [Bool.and_eq_true, decide_eq_true_eq, decide_eq_true_eq] at rounds
    exact Nat.le_of_lt rounds.2

/-- The digits as a whole number, and how many zeros follow it or, counted negatively, how many
of them stand after the point. -/
theorem shortest_value {x : Magnitude} (nonzero : x.isZero = false) (tie : Tie) :
    digitsValue (x.shortest tie).digits ≠ 0 ∧ digitsValue (x.shortest tie).digits ≤ 10 ^ 17 ∧
    ∀ zeros : Nat, (x.shortest tie).point - (x.shortest tie).digits.length = zeros →
      4 * (digitsValue (x.shortest tie).digits * 10 ^ zeros * unitsPerOne) ≤
        4 * x.units + 2 * 2 ^ x.exponent := by
  obtain ⟨tried, n, early, stands, digits⟩ := digitsFrom_eq_pointDigits nonzero tie
    (show 16 + 0 = 16 from rfl)
  rw [shortest, if_neg (by simp [nonzero]), digits, pointDigits]
  obtain ⟨dropped, counted, value⟩ := exists_digitsValue_mul_pow n
  obtain ⟨few, rounds⟩ := onGrid?_point stands
  have near := le_of_roundsTo rounds
  dsimp only
  refine ⟨?_, ?_, ?_⟩
  · intro zero
    rw [zero, Nat.zero_mul] at value
    exact onGrid?_ne_zero nonzero stands value.symm
  · calc
      _ ≤ _ * 10 ^ dropped := Nat.le_mul_of_pos_right _ (Nat.pow_pos (by decide))
      _ = n := value
      _ ≤ 10 ^ (tried + 1) := few
      _ ≤ 10 ^ 17 := Nat.pow_le_pow_right (by decide) (by omega)
  · intro zeros shifted
    generalize digitsValue ((Nat.toDigits 10 n).reverse.dropWhile (· == '0')).reverse = kept
      at value ⊢
    have power : pointOf x - ↑(tried + 1) + dropped = zeros := by omega
    rw [gridStep] at near
    split at near
    · rename_i whole
      have exponent : zeros = dropped + (pointOf x - ↑(tried + 1)).toNat := by omega
      calc
        4 * (kept * 10 ^ zeros * unitsPerOne) =
            4 * (kept * 10 ^ dropped * 10 ^ (pointOf x - ↑(tried + 1)).toNat * unitsPerOne) := by
          rw [exponent, Nat.pow_add]
          ring
        _ = 4 * (n * 10 ^ (pointOf x - ↑(tried + 1)).toNat * unitsPerOne) := by rw [value]
        _ ≤ (4 * x.units + 2 * 2 ^ x.exponent) * 1 := near
        _ = 4 * x.units + 2 * 2 ^ x.exponent := Nat.mul_one _
    · rename_i fraction
      have exponent : dropped = zeros + (-(pointOf x - ↑(tried + 1))).toNat := by omega
      rw [← value, exponent, Nat.pow_add] at near
      apply Nat.le_of_mul_le_mul_right
        (c := 10 ^ (-(pointOf x - ↑(tried + 1))).toNat) ?_ (Nat.pow_pos (by decide))
      refine Nat.le_trans (Nat.le_of_eq ?_) near
      show _ = 4 * (kept * (10 ^ zeros * 10 ^ _) * 1 * unitsPerOne)
      ring

theorem leadingZeros_le (denominator fuel numerator : Nat) :
    leadingZeros denominator fuel numerator ≤ fuel := by
  induction fuel generalizing numerator with
  | zero => exact Nat.le_refl 0
  | succ fuel ih =>
      rw [leadingZeros]
      split
      · exact Nat.zero_le _
      · exact Nat.succ_le_succ (ih (10 * numerator))

theorem unitsTooLarge_lt_pow : unitsTooLarge < 10 ^ (greatestPower + 1) * unitsPerOne := by
  decide +kernel

theorem digitCount_floor_le (x : Magnitude) : digitCount x.floor ≤ greatestPower + 1 := by
  by_cases zero : x.floor = 0
  · rw [zero, digitCount, if_pos rfl]
    exact Nat.zero_le _
  have least := pow_digitCount_le zero
  have below : x.floor < 10 ^ (greatestPower + 1) :=
    (Nat.div_lt_iff_lt_mul unitsPerOne_pos).mpr
      (Nat.lt_trans (units_lt_unitsTooLarge x) unitsTooLarge_lt_pow)
  have fewer := (Nat.pow_lt_pow_iff_right (by decide : 1 < 10)).mp (Nat.lt_of_le_of_lt least below)
  omega

/-- The point of a double's digits lies within a bounded distance. -/
theorem shortest_point {x : Magnitude} (nonzero : x.isZero = false) (tie : Tie) :
    -1000 ≤ (x.shortest tie).point ∧ (x.shortest tie).point ≤ 1000 := by
  obtain ⟨tried, n, early, stands, digits⟩ := digitsFrom_eq_pointDigits nonzero tie
    (show 16 + 0 = 16 from rfl)
  rw [shortest, if_neg (by simp [nonzero]), digits, pointDigits]
  have few : n < 10 ^ 18 := by
    have grown : 10 ^ (tried + 1) ≤ 10 ^ 17 := Nat.pow_le_pow_right (by decide) (by omega)
    exact Nat.lt_of_le_of_lt (Nat.le_trans (onGrid?_point stands).1 grown) (by decide)
  have counted := (Nat.length_toDigits_le_iff (by decide) (by decide)).mpr few
  have left := leadingZeros_le unitsPerOne 400 x.units
  have right := digitCount_floor_le x
  rw [show greatestPower = 308 from rfl] at right
  dsimp only
  rw [pointOf]
  split <;> omega

/-- The shortest digits of a number that is not zero do not start with a zero either. -/
theorem shortest_head_ne_zero {x : Magnitude} (nonzero : x.isZero = false) {tie : Tie} {c : Char}
    {rest : List Char} (starts : (x.shortest tie).digits = c :: rest) : c ≠ '0' := by
  obtain ⟨tried, n, -, stands, digits⟩ := digitsFrom_eq_pointDigits nonzero tie
    (show 16 + 0 = 16 from rfl)
  rw [shortest, if_neg (by simp [nonzero]), digits, pointDigits] at starts
  have parts := dropped_append_zeros (Nat.toDigits 10 n)
  dsimp only at starts
  rw [starts, List.cons_append] at parts
  exact toDigits_head_ne_zero (onGrid?_ne_zero nonzero stands) parts.symm

/-! ## The digits taken in again -/

theorem powerOfTen?_bounded {power : Nat} (small : power ≤ greatestPower) :
    10 ^ power * unitsPerOne < unitsTooLarge * 1 := by
  have grown : 10 ^ power ≤ 10 ^ greatestPower := Nat.pow_le_pow_right (by decide : 0 < 10) small
  rw [Nat.mul_one]
  exact Nat.lt_of_le_of_lt (Nat.mul_le_mul_right _ grown) pow_mul_unitsPerOne_lt

/-- Every power of ten that is used as a factor is rounded to at least one. -/
theorem exists_powerOfTen? {power : Nat} (small : power ≤ greatestPower) :
    ∃ y, powerOfTen? power = some y ∧ unitsPerOne ≤ y.units := by
  obtain ⟨y, rounded⟩ := exists_ofNat? (Nat.pow_le_pow_right (by decide : 10 > 0) small)
  exact ⟨y, rounded, unitsPerOne_le_units Nat.one_pos rounded (powerOfTen?_bounded small)
    (Nat.pow_pos (by decide))⟩

/-- Dividing by a number of at least one stays finite. -/
theorem exists_div? (x : Magnitude) {y : Magnitude} (atLeastOne : unitsPerOne ≤ y.units) :
    ∃ z, x.div? y = some z := by
  obtain ⟨z, rounded, -⟩ := @exists_ofRatio? x.units y.units
    (Nat.lt_of_lt_of_le unitsPerOne_pos atLeastOne)
    (Nat.lt_of_lt_of_le (Nat.mul_lt_mul_of_pos_right (units_lt_unitsTooLarge x) unitsPerOne_pos)
      (Nat.mul_le_mul_left _ atLeastOne))
  exact ⟨z, rounded⟩

theorem exists_scaleDown {rest : Nat} (small : rest ≤ greatestPower) (steps : Nat) (x : Magnitude) :
    ∃ z, scaleDown rest steps x = some z := by
  induction steps generalizing x with
  | zero =>
      obtain ⟨y, rounded, atLeastOne⟩ := exists_powerOfTen? small
      rw [scaleDown, rounded, Option.bind_some]
      exact exists_div? x atLeastOne
  | succ steps ih =>
      rw [scaleDown]
      split
      · exact ⟨x, rfl⟩
      · obtain ⟨y, rounded, atLeastOne⟩ := exists_powerOfTen? (Nat.le_refl greatestPower)
        obtain ⟨z, divided⟩ := exists_div? x atLeastOne
        rw [rounded, Option.bind_some, divided]
        exact ih z

theorem exists_divPower (x : Magnitude) (power : Nat) : ∃ z, x.divPower power = some z := by
  rw [divPower]
  apply exists_scaleDown
  rw [show greatestPower = 308 from rfl]
  omega

/-- Digits with a power of ten that makes them smaller are taken in as a finite number. -/
theorem exists_ofScaled?_of_neg {significand : Nat} (few : significand ≤ 10 ^ 17) {power : Int}
    (down : power < 0) : ∃ z, ofScaled? significand power = some z := by
  have bounded : significand ≤ 10 ^ greatestPower :=
    Nat.le_trans few (Nat.pow_le_pow_right (by decide) (by decide))
  obtain ⟨x, rounded⟩ := exists_ofNat? bounded
  rw [ofScaled?, rounded, Option.bind_some, if_pos down]
  exact exists_divPower x _

theorem exists_mul? {x y : Magnitude}
    (bounded : x.units * y.units < unitsTooLarge * unitsPerOne) : ∃ z, x.mul? y = some z := by
  have scaled : x.units * y.units * unitsPerOne < unitsTooLarge * (unitsPerOne * unitsPerOne) := by
    rw [← Nat.mul_assoc]
    exact Nat.mul_lt_mul_of_pos_right bounded unitsPerOne_pos
  obtain ⟨z, rounded, -⟩ := exists_ofRatio? (Nat.mul_pos unitsPerOne_pos unitsPerOne_pos) scaled
  exact ⟨z, rounded⟩

/-- The double is none of the two largest ones. -/
def BelowLast (x : Magnitude) : Prop := x.exponent ≤ 2044 ∨ x.mantissa ≤ 9007199254740989

/-- Half a step above a double that is none of the two largest, three roundings up do not reach
what is too large. -/
theorem margin {x : Magnitude} (below : x.BelowLast) :
    (mantissaBound + 1) * (mantissaBound + 1) * (4 * x.units + 2 * 2 ^ x.exponent) <
      4 * (mantissaBound * mantissaBound) * unitsTooLarge := by
  have bits : x.mantissa ≤ 9007199254740991 := Nat.le_of_lt_succ x.canonical.1
  have inside := x.canonical.2.1
  have top := topPlaces_eq
  have step := topStep_pos
  have grid : 4 * x.units + 2 * 2 ^ x.exponent = (4 * x.mantissa + 2) * 2 ^ x.exponent := by
    rw [units_eq]
    ring
  have reach : (4 * x.mantissa + 2) * 2 ^ x.exponent ≤ 72057594037927916 * topStep := by
    -- Either the last place or the mantissa leaves room.
    rcases below with low | short
    · have power : 2 ^ x.exponent ≤ topStep * 2 ^ 0 := by
        rw [← two_pow_topPlaces_add]
        exact Nat.pow_le_pow_right (by decide) (by omega)
      calc
        (4 * x.mantissa + 2) * 2 ^ x.exponent ≤ 36028797018963966 * (topStep * 2 ^ 0) :=
          Nat.mul_le_mul (by omega) power
        _ ≤ 72057594037927916 * topStep := by omega
    · have power : 2 ^ x.exponent ≤ topStep * 2 ^ 1 := by
        rw [← two_pow_topPlaces_add]
        exact Nat.pow_le_pow_right (by decide) (by omega)
      calc
        (4 * x.mantissa + 2) * 2 ^ x.exponent ≤ 36028797018963958 * (topStep * 2 ^ 1) :=
          Nat.mul_le_mul (by omega) power
        _ = 72057594037927916 * topStep := by ring
  rw [grid, unitsTooLarge, show mantissaBound = 9007199254740992 from rfl]
  linarith

theorem leastFull_le_unitsPerOne : leastFull ≤ unitsPerOne := by
  decide +kernel

/-- Three factors that are each off by one part in `2^53` and a double with its half step. -/
theorem product_lt {first second number power whole near large : Nat}
    (firstNear : mantissaBound * first ≤ (mantissaBound + 1) * (number * whole))
    (secondNear : mantissaBound * second ≤ (mantissaBound + 1) * (power * whole))
    (stands : 4 * (number * power * whole) ≤ near)
    (inside : (mantissaBound + 1) * (mantissaBound + 1) * near <
      4 * (mantissaBound * mantissaBound) * large) (positive : 0 < whole) :
    first * second < large * whole := by
  have scaled : 4 * (mantissaBound * mantissaBound) * (first * second) <
      4 * (mantissaBound * mantissaBound) * (large * whole) :=
    calc
      4 * (mantissaBound * mantissaBound) * (first * second) =
          4 * (mantissaBound * first * (mantissaBound * second)) := by ring
      _ ≤ 4 * ((mantissaBound + 1) * (number * whole) * ((mantissaBound + 1) * (power * whole))) :=
        Nat.mul_le_mul_left _ (Nat.mul_le_mul firstNear secondNear)
      _ = (mantissaBound + 1) * (mantissaBound + 1) * (4 * (number * power * whole)) * whole := by
        ring
      _ ≤ (mantissaBound + 1) * (mantissaBound + 1) * near * whole :=
        Nat.mul_le_mul_right _ (Nat.mul_le_mul_left _ stands)
      _ < 4 * (mantissaBound * mantissaBound) * large * whole :=
        Nat.mul_lt_mul_of_pos_right inside positive
      _ = 4 * (mantissaBound * mantissaBound) * (large * whole) := by ring
  exact Nat.lt_of_mul_lt_mul_left scaled

/-- Digits with a power of ten that makes them larger are taken in as a finite number, if they
stand for a double that is none of the two largest ones. -/
theorem exists_ofScaled?_of_near {x : Magnitude} (below : x.BelowLast) {significand zeros : Nat}
    (positive : significand ≠ 0) (few : significand ≤ 10 ^ 17)
    (near : 4 * (significand * 10 ^ zeros * unitsPerOne) ≤ 4 * x.units + 2 * 2 ^ x.exponent) :
    ∃ z, ofScaled? significand zeros = some z := by
  have atLeastOne : 1 ≤ significand := Nat.one_le_iff_ne_zero.mpr positive
  have small : zeros ≤ greatestPower := by
    apply Nat.le_of_lt_succ
    apply Nat.lt_of_not_le
    intro far
    have grown : 10 ^ (greatestPower + 1) * unitsPerOne ≤ significand * 10 ^ zeros * unitsPerOne :=
      Nat.mul_le_mul_right _ (Nat.le_trans (Nat.pow_le_pow_right (by decide : 0 < 10) far)
        (Nat.le_mul_of_pos_left _ atLeastOne))
    have room := margin below
    have tooLarge := unitsTooLarge_lt_pow
    rw [show mantissaBound = 9007199254740992 from rfl] at room
    linarith
  have bounded : significand ≤ 10 ^ greatestPower :=
    Nat.le_trans few (Nat.pow_le_pow_right (by decide : 0 < 10) (by decide))
  obtain ⟨x, rounded⟩ := exists_ofNat? bounded
  obtain ⟨y, roundedPower, -⟩ := exists_powerOfTen? small
  have firstNear := units_ofRatio?_le Nat.one_pos rounded
    (by
      rw [Nat.mul_one]
      exact Nat.lt_of_le_of_lt (Nat.mul_le_mul_right _ bounded) pow_mul_unitsPerOne_lt)
    (Nat.le_trans leastFull_le_unitsPerOne (Nat.le_mul_of_pos_left _ atLeastOne))
  have secondNear := units_ofRatio?_le Nat.one_pos roundedPower (powerOfTen?_bounded small)
    (Nat.le_trans leastFull_le_unitsPerOne (Nat.le_mul_of_pos_left _ (Nat.pow_pos (by decide))))
  rw [Nat.mul_one] at firstNear secondNear
  rw [ofScaled?, rounded, Option.bind_some, if_neg (by omega), Int.toNat_natCast, if_pos small,
    roundedPower, Option.bind_some]
  exact exists_mul? (product_lt firstNear secondNear near (margin below) unitsPerOne_pos)

end Magnitude

/-- What a reader takes digits for. A number that is written in full has a zero after its point,
which is taken for one more digit; otherwise every digit is one of the number. -/
def Digits.taken? (d : Digits) : Option Magnitude :=
  if d.digits.length ≤ d.point ∧ d.point ≤ 16 then
    Magnitude.ofScaled?
      (digitsValue d.digits * 10 ^ ((d.point - d.digits.length).toNat + 1)) (-1)
  else Magnitude.ofScaled? (digitsValue d.digits) (d.point - d.digits.length)

/-- A number that is written in full has at most sixteen digits. -/
theorem significand_full_le {d : Digits} (all : ∀ c ∈ d.digits, c.isDigit)
    (full : d.digits.length ≤ d.point) (short : d.point ≤ 16) :
    digitsValue d.digits * 10 ^ ((d.point - d.digits.length).toNat + 1) ≤ 10 ^ 17 :=
  calc
    digitsValue d.digits * 10 ^ ((d.point - d.digits.length).toNat + 1) ≤
        10 ^ d.digits.length * 10 ^ ((d.point - d.digits.length).toNat + 1) :=
      Nat.mul_le_mul_right _ (Nat.le_of_lt (digitsValue_lt all))
    _ = 10 ^ (d.digits.length + ((d.point - d.digits.length).toNat + 1)) := (Nat.pow_add _ _ _).symm
    _ ≤ 10 ^ 17 := Nat.pow_le_pow_right (by decide) (by omega)

theorem Digits.exists_taken?_full {d : Digits} (all : ∀ c ∈ d.digits, c.isDigit)
    (full : d.digits.length ≤ d.point ∧ d.point ≤ 16) : ∃ z, d.taken? = some z := by
  rw [taken?, if_pos full]
  exact Magnitude.exists_ofScaled?_of_neg (significand_full_le all full.1 full.2) (by decide)

namespace Magnitude

theorem exists_taken?_of_belowLast {x : Magnitude} (nonzero : x.isZero = false)
    (below : x.BelowLast) : ∃ z, (x.shortest .even).taken? = some z := by
  obtain ⟨positive, few, near⟩ := shortest_value nonzero .even
  obtain ⟨-, all⟩ := shortest_digits nonzero .even
  by_cases full : (x.shortest .even).digits.length ≤ (x.shortest .even).point ∧
      (x.shortest .even).point ≤ 16
  · exact Digits.exists_taken?_full all full
  · rw [Digits.taken?, if_neg full]
    by_cases down : (x.shortest .even).point - (x.shortest .even).digits.length < 0
    · exact exists_ofScaled?_of_neg few down
    · obtain ⟨zeros, shifted⟩ := Int.eq_ofNat_of_zero_le (Int.not_lt.mp down)
      rw [shifted]
      exact exists_ofScaled?_of_near below positive few (near zeros shifted)

/-- The two largest doubles are finite when they are taken in again. -/
theorem exists_taken?_of_not_belowLast {x : Magnitude} (last : ¬ x.BelowLast) :
    ∃ z, (x.shortest .even).taken? = some z := by
  obtain ⟨mantissa, exponent, canonical⟩ := x
  simp only [BelowLast, not_or, Nat.not_le] at last
  have lastPlace : exponent = 2045 := by omega
  have bits : mantissa = 9007199254740990 ∨ mantissa = 9007199254740991 := by
    have bound : mantissa < 9007199254740992 := canonical.1
    omega
  subst lastPlace
  rcases bits with rfl | rfl
  · apply Option.isSome_iff_exists.mp
    decide +kernel +revert
  · apply Option.isSome_iff_exists.mp
    decide +kernel +revert

/-- The digits of every magnitude are taken in as one. -/
theorem exists_taken? (x : Magnitude) : ∃ z, (x.shortest .even).taken? = some z := by
  by_cases zero : x.isZero = true
  · rw [shortest, if_pos zero]
    exact Digits.exists_taken?_full (by simp) (by decide)
  · by_cases below : x.BelowLast
    · exact exists_taken?_of_belowLast (by simpa using zero) below
    · exact exists_taken?_of_not_belowLast below

/-- What a magnitude is after it has been written and read. -/
def reread (x : Magnitude) : Magnitude := ((x.shortest .even).taken?).getD x

theorem taken?_shortest (x : Magnitude) : (x.shortest .even).taken? = some x.reread := by
  obtain ⟨z, taken⟩ := exists_taken? x
  rw [reread, taken]
  rfl

end Magnitude

/-- What a double is after it has been written and read. -/
def Binary64.reread : Binary64 → Binary64
  | .finite negative x => .finite negative x.reread
  | other => other

theorem Binary64.isFinite_reread (x : Binary64) : x.reread.isFinite = x.isFinite := by
  cases x <;> rfl

end BlockForge
