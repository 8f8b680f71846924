/-
# Seventeen digits suffice

The search for the shortest digits tries grids of one to seventeen digits. It never ends
without digits: the point of a number says how many digits stand before its decimal point,
so the grid of seventeen digits has steps below the distance of neighbouring doubles, and
one of the two points next to the number rounds to it.

All statements are about natural numbers. A quotient of units and a power of ten are
compared after both are multiplied out.
-/

import BlockForge.Decimal.Shortest
import Mathlib.Data.List.TakeWhile
import Mathlib.Tactic.Linarith
import Mathlib.Tactic.Ring

namespace BlockForge.Magnitude

/-- Three binary digits are less than one decimal digit. -/
private theorem two_pow_le_ten_pow {binary decimal : Nat} (short : binary ≤ 3 * decimal) :
    Nat.pow 2 binary ≤ 10 ^ decimal :=
  calc
    2 ^ binary ≤ 2 ^ (3 * decimal) := Nat.pow_le_pow_right (by decide) short
    _ = 8 ^ decimal := Nat.pow_mul 2 3 decimal
    _ ≤ 10 ^ decimal := Nat.pow_le_pow_left (by decide) decimal

private theorem two_pow_pos (binary : Nat) : 0 < Nat.pow 2 binary := Nat.pow_pos (by decide)

theorem unitsPerOne_pos : 0 < unitsPerOne := by
  unfold unitsPerOne
  apply two_pow_pos

theorem unitsPerOne_le : unitsPerOne ≤ 10 ^ 400 := by
  unfold unitsPerOne
  apply two_pow_le_ten_pow
  decide

-- The number of units is never computed below, only multiplied.
seal unitsPerOne

/-- A magnitude is its mantissa times a power of two. -/
theorem units_eq (x : Magnitude) : x.units = x.mantissa * 2 ^ x.exponent := rfl

theorem units_pos {x : Magnitude} (nonzero : x.isZero = false) : 0 < x.units := by
  have mantissa : x.mantissa ≠ 0 := by simpa [isZero] using nonzero
  rw [units_eq]
  exact Nat.mul_pos (Nat.pos_of_ne_zero mantissa) (Nat.pow_pos (by decide))

/-! ## Where the point stands -/

/-- A number with `k` digits is at least a one with `k - 1` zeros. -/
theorem pow_digitCount_le {n : Nat} (nonzero : n ≠ 0) : 10 ^ (digitCount n - 1) ≤ n := by
  induction n using Nat.strong_induction_on with
  | _ n ih =>
      rw [digitCount, if_neg nonzero, Nat.add_sub_cancel]
      by_cases small : n / 10 = 0
      · rw [small, digitCount, if_pos rfl]
        exact Nat.one_le_iff_ne_zero.mpr nonzero
      · have shorter := ih (n / 10) (by omega) small
        have counted : digitCount (n / 10) = digitCount (n / 10) - 1 + 1 := by
          have positive : 0 < digitCount (n / 10) := by
            rw [digitCount, if_neg small]
            exact Nat.succ_pos _
          omega
        rw [counted, Nat.pow_succ]
        omega

/-- Enough multiplications by ten reach the denominator, and no more are counted. -/
theorem le_mul_pow_leadingZeros (denominator fuel numerator : Nat)
    (enough : denominator ≤ numerator * 10 ^ fuel) :
    denominator ≤ numerator * 10 ^ leadingZeros denominator fuel numerator := by
  induction fuel generalizing numerator with
  | zero => exact enough
  | succ fuel ih =>
      rw [leadingZeros]
      split
      · rename_i reached
        rw [Nat.pow_zero, Nat.mul_one]
        exact reached
      · have scaled := ih (10 * numerator) (by rw [Nat.pow_succ] at enough; linarith)
        rw [Nat.pow_succ]
        linarith

/-- The point is not too far to the right: a power of ten below it is at most the number.
The exponent is given as a difference, so that no side is a fraction. -/
theorem unitsPerOne_mul_pow_le {x : Magnitude} (nonzero : x.isZero = false) (up down : Nat)
    (power : (up : Int) - down = pointOf x - 1) :
    unitsPerOne * 10 ^ up ≤ x.units * 10 ^ down := by
  by_cases whole : unitsPerOne ≤ x.units
  · rw [pointOf, if_pos whole] at power
    have floored : x.floor ≠ 0 := (Nat.div_pos whole unitsPerOne_pos).ne'
    have counted : 0 < digitCount x.floor := by
      rw [digitCount, if_neg floored]
      exact Nat.succ_pos _
    have atLeast : 10 ^ (digitCount x.floor - 1) * unitsPerOne ≤ x.units :=
      le_trans (Nat.mul_le_mul_right _ (pow_digitCount_le floored))
        (Nat.div_mul_le_self x.units unitsPerOne)
    have exponent : up = digitCount x.floor - 1 + down := by omega
    calc
      unitsPerOne * 10 ^ up =
          10 ^ (digitCount x.floor - 1) * unitsPerOne * 10 ^ down := by
        rw [exponent, Nat.pow_add]
        ring
      _ ≤ x.units * 10 ^ down := Nat.mul_le_mul_right _ atLeast
  · rw [pointOf, if_neg whole] at power
    have reached : unitsPerOne ≤ x.units * 10 ^ leadingZeros unitsPerOne 400 x.units :=
      le_mul_pow_leadingZeros _ _ _
        (le_trans unitsPerOne_le (Nat.le_mul_of_pos_left _ (units_pos nonzero)))
    have exponent : down = leadingZeros unitsPerOne 400 x.units + up := by omega
    calc
      unitsPerOne * 10 ^ up ≤
          x.units * 10 ^ leadingZeros unitsPerOne 400 x.units * 10 ^ up :=
        Nat.mul_le_mul_right _ reached
      _ = x.units * 10 ^ down := by
        rw [exponent, Nat.pow_add]
        ring

/-! ## The grid of seventeen digits -/

/-- A grid of `count + 1` digits has at least `10^count` steps below the number. -/
theorem pow_mul_gridStep_le {x : Magnitude} (nonzero : x.isZero = false) (count : Nat) :
    10 ^ count * (unitsPerOne * (gridStep x (count + 1)).1) ≤
      x.units * (gridStep x (count + 1)).2 := by
  rw [gridStep]
  split
  · rename_i whole
    have below := unitsPerOne_mul_pow_le nonzero (count + (pointOf x - ↑(count + 1)).toNat) 0
      (by omega)
    calc
      10 ^ count * (unitsPerOne * 10 ^ (pointOf x - ↑(count + 1)).toNat) =
          unitsPerOne * 10 ^ (count + (pointOf x - ↑(count + 1)).toNat) := by
        rw [Nat.pow_add]
        ring
      _ ≤ x.units * 1 := below
  · rename_i fraction
    have below := unitsPerOne_mul_pow_le nonzero count (-(pointOf x - ↑(count + 1))).toNat
      (by omega)
    calc
      10 ^ count * (unitsPerOne * 1) = unitsPerOne * 10 ^ count := by ring
      _ ≤ x.units * 10 ^ (-(pointOf x - ↑(count + 1))).toNat := below

theorem gridStep_pos (x : Magnitude) (count : Nat) :
    0 < (gridStep x count).1 ∧ 0 < (gridStep x count).2 := by
  rw [gridStep]
  split
  · exact ⟨Nat.pow_pos (by decide), Nat.one_pos⟩
  · exact ⟨Nat.one_pos, Nat.pow_pos (by decide)⟩

/-- How far below a magnitude the numbers reach that round to it, in quarters of a unit: less
far where the mantissa is at its least, because the doubles below are closer together. -/
def reachBelow (x : Magnitude) : Nat :=
  if x.mantissa = leastFull ∧ 0 < x.exponent then 2 ^ x.exponent else 2 * 2 ^ x.exponent

/-- A quotient rounds to a magnitude if it is nearer to it than half-way to its neighbours. -/
theorem roundsTo_of_near {x : Magnitude} (nonzero : x.isZero = false)
    {numerator denominator : Nat}
    (above : 4 * (x.units * denominator) <
      4 * (numerator * unitsPerOne) + reachBelow x * denominator)
    (below : 4 * (numerator * unitsPerOne) <
      4 * (x.units * denominator) + 2 * (2 ^ x.exponent * denominator)) :
    roundsTo x numerator denominator = true := by
  have mantissa : 1 ≤ x.mantissa := by
    have nonzero : x.mantissa ≠ 0 := by simpa [isZero] using nonzero
    omega
  have reach : reachBelow x ≤ 4 * x.units := by
    have step : 1 * 2 ^ x.exponent ≤ x.units := Nat.mul_le_mul_right _ mantissa
    rw [reachBelow]
    split <;> omega
  have lower : (4 * x.units - reachBelow x) * denominator < 4 * numerator * unitsPerOne := by
    have enough := Nat.mul_le_mul_right denominator reach
    rw [Nat.sub_mul, Nat.mul_assoc 4 x.units, Nat.mul_assoc 4 numerator]
    rw [Nat.mul_assoc 4 x.units] at enough
    omega
  have upper : 4 * numerator * unitsPerOne <
      (4 * x.units + 2 * 2 ^ x.exponent) * denominator := by
    rw [Nat.add_mul, Nat.mul_assoc 4 x.units, Nat.mul_assoc 4 numerator, Nat.mul_assoc 2]
    exact below
  have reached : (if x.mantissa = leastFull ∧ 0 < x.exponent then Nat.pow 2 x.exponent
      else 2 * Nat.pow 2 x.exponent) = reachBelow x := rfl
  simp only [roundsTo, reached]
  split
  · exact Bool.and_eq_true_iff.mpr
      ⟨decide_eq_true (Nat.le_of_lt lower), decide_eq_true (Nat.le_of_lt upper)⟩
  · exact Bool.and_eq_true_iff.mpr ⟨decide_eq_true lower, decide_eq_true upper⟩

/-- On the grid of seventeen digits one of the two points next to a number rounds to it: the
step of the grid is at most the distance of the doubles around the number. -/
theorem neighbour_rounds {x : Magnitude} (nonzero : x.isZero = false) {up down : Nat}
    (positive : 0 < up ∧ 0 < down) (grid : 10 ^ 16 * (unitsPerOne * up) ≤ x.units * down) :
    roundsTo x (x.units * down / (unitsPerOne * up) * up) down = true ∨
      roundsTo x ((x.units * down / (unitsPerOne * up) + 1) * up) down = true := by
  have width : 0 < unitsPerOne * up := Nat.mul_pos unitsPerOne_pos positive.1
  have split := Nat.div_add_mod (x.units * down) (unitsPerOne * up)
  have rest := Nat.mod_lt (x.units * down) width
  -- One quarter of the distance to the next double, in the units of the comparison.
  have quarter : 0 < 2 ^ x.exponent * down := Nat.mul_pos (Nat.pow_pos (by decide)) positive.2
  have size : x.units * down = x.mantissa * (2 ^ x.exponent * down) := by
    rw [units_eq, Nat.mul_assoc]
  have bounded : x.mantissa * (2 ^ x.exponent * down) ≤
      9007199254740991 * (2 ^ x.exponent * down) :=
    Nat.mul_le_mul_right _ (Nat.le_of_lt_succ x.canonical.1)
  have lowerPoint (n : Nat) : n * up * unitsPerOne = unitsPerOne * up * n := by ring
  by_cases near : 4 * (x.units * down % (unitsPerOne * up)) < reachBelow x * down
  · left
    apply roundsTo_of_near nonzero
    · rw [lowerPoint]
      omega
    · rw [lowerPoint]
      omega
  · right
    -- The lower point is too far away, so the upper one is nearer than half a step.
    have upperNear : 4 * (unitsPerOne * up) <
        4 * (x.units * down % (unitsPerOne * up)) + 2 * (2 ^ x.exponent * down) := by
      by_cases least : x.mantissa = leastFull ∧ 0 < x.exponent
      · rw [reachBelow, if_pos least] at near
        rw [least.1, show leastFull = 4503599627370496 from rfl] at size
        omega
      · rw [reachBelow, if_neg least, Nat.mul_assoc] at near
        omega
    apply roundsTo_of_near nonzero
    · rw [lowerPoint, Nat.mul_add]
      omega
    · rw [lowerPoint, Nat.mul_add]
      omega

/-- Which of two neighbouring points is taken, given whether they serve and where the number
stands between them. -/
def chosenPoint (tie : Tie) (lower remainder width : Nat) (lowerServes upperServes : Bool) :
    Option Nat :=
  if lowerServes && upperServes then
    if 2 * remainder < width then some lower
    else if width < 2 * remainder then some (lower + 1)
    else
      match tie with
      | .even => some (lower + lower % 2)
      | .away => some (lower + 1)
  else if lowerServes then some lower
  else if upperServes then some (lower + 1)
  else none

theorem onGrid?_eq_chosenPoint (tie : Tie) (x : Magnitude) (count : Nat) :
    onGrid? tie x count =
      chosenPoint tie (x.units * (gridStep x count).2 / (unitsPerOne * (gridStep x count).1))
        (x.units * (gridStep x count).2 % (unitsPerOne * (gridStep x count).1))
        (unitsPerOne * (gridStep x count).1)
        (roundsTo x (x.units * (gridStep x count).2 / (unitsPerOne * (gridStep x count).1) *
          (gridStep x count).1) (gridStep x count).2)
        (roundsTo x ((x.units * (gridStep x count).2 / (unitsPerOne * (gridStep x count).1) + 1) *
          (gridStep x count).1) (gridStep x count).2) := rfl

theorem le_of_chosenPoint {tie : Tie} {lower remainder width n : Nat}
    {lowerServes upperServes : Bool}
    (chosen : chosenPoint tie lower remainder width lowerServes upperServes = some n) :
    lower ≤ n := by
  cases tie <;> grind [chosenPoint]

theorem chosenPoint_ne_none {lowerServes upperServes : Bool}
    (serves : lowerServes = true ∨ upperServes = true) (tie : Tie) (lower remainder width : Nat) :
    chosenPoint tie lower remainder width lowerServes upperServes ≠ none := by
  cases tie <;> grind [chosenPoint]

/-- A point that stands for a number is not zero, because the number is at least one step. -/
theorem onGrid?_ne_zero {x : Magnitude} (nonzero : x.isZero = false) {tie : Tie} {count n : Nat}
    (stands : onGrid? tie x (count + 1) = some n) : n ≠ 0 := by
  have width : 0 < unitsPerOne * (gridStep x (count + 1)).1 :=
    Nat.mul_pos unitsPerOne_pos (gridStep_pos x (count + 1)).1
  have oneStep : unitsPerOne * (gridStep x (count + 1)).1 ≤
      x.units * (gridStep x (count + 1)).2 :=
    le_trans (Nat.le_mul_of_pos_left _ (Nat.pow_pos (by decide)))
      (pow_mul_gridStep_le nonzero count)
  rw [onGrid?_eq_chosenPoint] at stands
  exact (Nat.lt_of_lt_of_le (Nat.div_pos oneStep width) (le_of_chosenPoint stands)).ne'

/-- Some point of the grid of seventeen digits stands for a number. -/
theorem onGrid?_seventeen {x : Magnitude} (nonzero : x.isZero = false) (tie : Tie) :
    onGrid? tie x 17 ≠ none := by
  rw [onGrid?_eq_chosenPoint]
  exact chosenPoint_ne_none
    (neighbour_rounds nonzero (gridStep_pos x 17) (pow_mul_gridStep_le nonzero 16)) _ _ _ _

/-- The digits of a point of the grid of `count` digits. -/
def pointDigits (x : Magnitude) (count n : Nat) : Digits :=
  ⟨((Nat.toDigits 10 n).reverse.dropWhile (· == '0')).reverse,
    pointOf x + (((Nat.toDigits 10 n).length : Int) - count)⟩

-- Nor is it looked at again how a grid is searched.
seal onGrid?

theorem digitsFrom_succ (tie : Tie) (x : Magnitude) (fuel count : Nat) :
    digitsFrom tie x (fuel + 1) count =
      match onGrid? tie x count with
      | some n => pointDigits x count n
      | none => digitsFrom tie x fuel (count + 1) := rfl

/-- The search ends with a point of one of its grids. -/
theorem digitsFrom_eq_pointDigits {x : Magnitude} (nonzero : x.isZero = false) (tie : Tie)
    {fuel count : Nat} (left : fuel + count = 16) :
    ∃ tried n, tried ≤ 16 ∧ onGrid? tie x (tried + 1) = some n ∧
      digitsFrom tie x (fuel + 1) (count + 1) = pointDigits x (tried + 1) n := by
  induction fuel generalizing count with
  | zero =>
      obtain ⟨n, stands⟩ := Option.ne_none_iff_exists'.mp (onGrid?_seventeen nonzero tie)
      have last : count = 16 := by omega
      subst last
      exact ⟨16, n, Nat.le_refl 16, stands, by rw [digitsFrom_succ, stands]⟩
  | succ fuel ih =>
      cases stands : onGrid? tie x (count + 1) with
      | some n => exact ⟨count, n, by omega, stands, by rw [digitsFrom_succ, stands]⟩
      | none =>
          have onwards : fuel + (count + 1) = 16 := by omega
          obtain ⟨tried, n, early, found, digits⟩ := ih onwards
          exact ⟨tried, n, early, found, by rw [digitsFrom_succ, stands, ← digits]⟩

/-! ## What the digits look like -/

/-- Zeros at the end are left out, but a number that is not zero has another digit. -/
theorem exists_nonzero_digit {n : Nat} (nonzero : n ≠ 0) :
    ∃ c ∈ Nat.toDigits 10 n, c ≠ '0' := by
  by_contra allZero
  have zeros : Nat.toDigits 10 n = List.replicate (Nat.toDigits 10 n).length '0' :=
    List.eq_replicate_iff.mpr ⟨rfl, fun c digit => by_contra fun other =>
      allZero ⟨c, digit, other⟩⟩
  have value : Nat.ofDigitChars 10 (Nat.toDigits 10 n) 0 = n := Nat.ofDigitChars_ten_toDigits
  rw [zeros, Nat.ofDigitChars_replicate_zero, Nat.mul_zero] at value
  exact nonzero value.symm

/-- The shortest digits of a number that is not zero are digits, and there are some. -/
theorem shortest_digits {x : Magnitude} (nonzero : x.isZero = false) (tie : Tie) :
    (x.shortest tie).digits ≠ [] ∧ ∀ c ∈ (x.shortest tie).digits, c.isDigit := by
  obtain ⟨tried, n, -, stands, digits⟩ := digitsFrom_eq_pointDigits nonzero tie
    (show 16 + 0 = 16 from rfl)
  rw [shortest, if_neg (by simp [nonzero]), digits]
  constructor
  · intro empty
    rw [pointDigits, List.reverse_eq_nil_iff, List.dropWhile_eq_nil_iff] at empty
    obtain ⟨c, digit, other⟩ := exists_nonzero_digit (onGrid?_ne_zero nonzero stands)
    have zero := empty c (List.mem_reverse.mpr digit)
    exact other (by simpa using zero)
  · intro c kept
    have digit : c ∈ Nat.toDigits 10 n :=
      List.mem_reverse.mp (List.dropWhile_sublist _ |>.subset (List.mem_reverse.mp kept))
    exact Nat.isDigit_of_mem_toDigits (by decide) (by decide) digit

end BlockForge.Magnitude
