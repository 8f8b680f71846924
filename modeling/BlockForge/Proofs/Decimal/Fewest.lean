/-
# The fewest digits

The shortest digits of a double are the fewest that are read as it, and of these the nearest. A
decimal of some digits that lies in the interval of a double is no nearer to it than one of its
two neighbours on the grid of as many digits: below the double it is at most the lower neighbour,
and above it at least the upper one. So this neighbour lies in the interval too, and the search
ends there at the latest.

Where the decimal point stands among the digits is decided by comparing doubles, although the
digits are only near to the double: rounding keeps the order, and a double that a power of ten is
rounded to is written as this power.
-/

import BlockForge.Proofs.Decimal.Interval

namespace BlockForge.Magnitude

seal unitsPerOne

variable {x : Magnitude} {tie : Tie} {count : Nat}

/-! ## The grid of some digits -/

def stepOf (x : Magnitude) (count : Nat) : ℚ := 10 ^ (pointOf x - count)

/-- The number of steps of a grid that fit below a magnitude. -/
def stepsBelow (x : Magnitude) (count : Nat) : Nat :=
  x.units * (gridStep x count).2 / (unitsPerOne * (gridStep x count).1)

theorem stepOf_pos (x : Magnitude) (count : Nat) : 0 < stepOf x count :=
  zpow_pos (by norm_num) _

/-- The point of a grid that is a number of steps away from zero. -/
theorem mul_stepOf (x : Magnitude) (count n : Nat) :
    n * stepOf x count = (n * (gridStep x count).1 : ℕ) / ((gridStep x count).2 : ℕ) := by
  obtain ⟨up, down, step, difference⟩ := exists_gridStep_eq x count
  rw [step, stepOf, mul_zpow_eq_div n difference]

/-- A point is not above a magnitude exactly if it is one of those that were counted. -/
theorem mul_stepOf_le_value_iff {n : Nat} :
    n * stepOf x count ≤ x.value ↔ n ≤ stepsBelow x count := by
  have positive := gridStep_pos x count
  have width : 0 < unitsPerOne * (gridStep x count).1 := Nat.mul_pos unitsPerOne_pos positive.1
  have down : (0 : ℚ) < ((gridStep x count).2 : ℕ) := by exact_mod_cast positive.2
  rw [stepsBelow, Nat.le_div_iff_mul_le width, mul_stepOf, value,
    div_le_div_iff₀ down unitsPerOne_cast_pos]
  norm_cast
  rw [Nat.mul_assoc, Nat.mul_comm unitsPerOne]

theorem value_lt_mul_stepOf_iff {n : Nat} :
    x.value < n * stepOf x count ↔ stepsBelow x count < n := by
  rw [← not_le, mul_stepOf_le_value_iff, not_le]

/-- The grid of `count + 1` digits has at least `10^count` steps below a magnitude. -/
theorem pow_le_stepsBelow (nonzero : x.isZero = false) (count : Nat) :
    10 ^ count ≤ stepsBelow x (count + 1) := by
  have width : 0 < unitsPerOne * (gridStep x (count + 1)).1 :=
    Nat.mul_pos unitsPerOne_pos (gridStep_pos x (count + 1)).1
  exact (Nat.le_div_iff_mul_le width).mpr (pow_mul_gridStep_le nonzero count)

theorem tens_mul_stepOf (x : Magnitude) (count : Nat) :
    (10 ^ count : ℕ) * stepOf x (count + 1) = 10 ^ (pointOf x - 1) := by
  rw [stepOf, Nat.cast_pow, Nat.cast_ofNat, ← zpow_natCast, ← zpow_add₀ (by norm_num)]
  congr 1
  push_cast
  ring

theorem roundsTo_iff_mem {n : Nat} :
    roundsTo x (n * (gridStep x count).1) (gridStep x count).2 = true ↔
      (n * stepOf x count : ℚ) ∈ x.interval := by
  rw [roundsTo_iff_mem_interval (gridStep_pos x count).2, mul_stepOf]

/-- What is left of a magnitude above its lower neighbour, compared with half a step. -/
theorem two_mul_remainder_le_iff :
    (2 * (x.units * (gridStep x count).2 % (unitsPerOne * (gridStep x count).1)) ≤
        unitsPerOne * (gridStep x count).1 ↔
      2 * (x.value - stepsBelow x count * stepOf x count) ≤ stepOf x count) ∧
    (unitsPerOne * (gridStep x count).1 ≤
        2 * (x.units * (gridStep x count).2 % (unitsPerOne * (gridStep x count).1)) ↔
      stepOf x count ≤ 2 * (x.value - stepsBelow x count * stepOf x count)) := by
  have positive := gridStep_pos x count
  have one := unitsPerOne_cast_pos
  have down : (0 : ℚ) < ((gridStep x count).2 : ℕ) := by exact_mod_cast positive.2
  have whole : (0 : ℚ) < unitsPerOne * ((gridStep x count).2 : ℕ) := mul_pos one down
  have step : stepOf x count = (unitsPerOne * (gridStep x count).1 : ℕ) /
      (unitsPerOne * ((gridStep x count).2 : ℕ)) := by
    have first := mul_stepOf x count 1
    rw [Nat.cast_one, one_mul, Nat.one_mul] at first
    rw [first, Nat.cast_mul, mul_div_mul_left _ _ one.ne']
  have parts : ((stepsBelow x count * (unitsPerOne * (gridStep x count).1) +
      x.units * (gridStep x count).2 % (unitsPerOne * (gridStep x count).1) : ℕ) : ℚ) =
        (x.units * (gridStep x count).2 : ℕ) :=
    congrArg Nat.cast (Nat.div_add_mod' _ _)
  have rest : x.value - stepsBelow x count * stepOf x count =
      (x.units * (gridStep x count).2 % (unitsPerOne * (gridStep x count).1) : ℕ) /
        (unitsPerOne * ((gridStep x count).2 : ℕ)) := by
    rw [step, value, eq_div_iff whole.ne', sub_mul, mul_assoc _ _ (_ * _),
      div_mul_cancel₀ _ whole.ne', ← mul_assoc, div_mul_cancel₀ _ one.ne', sub_eq_iff_eq_add']
    exact_mod_cast parts.symm
  rw [rest, step, ← mul_div_assoc, div_le_div_iff_of_pos_right whole,
    div_le_div_iff_of_pos_right whole]
  constructor <;> norm_cast

/-- Of two points that serve, the chosen one is not the farther one. -/
theorem chosenPoint_nearer {lower remainder width n : Nat} {lowerServes upperServes : Bool}
    (chosen : chosenPoint tie lower remainder width lowerServes upperServes = some n) :
    (n = lower ∧ (upperServes = true → 2 * remainder ≤ width)) ∨
      (n = lower + 1 ∧ (lowerServes = true → width ≤ 2 * remainder)) := by
  cases tie <;> grind [chosenPoint]

/-- The point that stands for a magnitude is one of its neighbours, and the other one is not nearer
if it is in the interval. -/
theorem cases_of_onGrid? {n : Nat} (stands : onGrid? tie x count = some n) :
    (n = stepsBelow x count ∧
        (((stepsBelow x count + 1 : ℕ) * stepOf x count : ℚ) ∈ x.interval →
          2 * (x.value - stepsBelow x count * stepOf x count) ≤ stepOf x count)) ∨
      (n = stepsBelow x count + 1 ∧
        ((stepsBelow x count * stepOf x count : ℚ) ∈ x.interval →
          stepOf x count ≤ 2 * (x.value - stepsBelow x count * stepOf x count))) := by
  rw [onGrid?_eq_chosenPoint] at stands
  obtain ⟨below, above⟩ := @two_mul_remainder_le_iff x count
  rcases chosenPoint_nearer stands with ⟨lower, nearer⟩ | ⟨upper, nearer⟩
  · exact .inl ⟨lower, fun serves => below.mp (nearer (roundsTo_iff_mem.mpr serves))⟩
  · exact .inr ⟨upper, fun serves => above.mp (nearer (roundsTo_iff_mem.mpr serves))⟩

section Decimal

variable {significand : Nat} (few : significand < 10 ^ (count + 1)) {power : Int}

include few

/-- A decimal of some digits is a point of the grid of as many digits, or it is too small to be
one. -/
theorem onGrid_or_small (x : Magnitude) (power : Int) :
    (∃ n : ℕ, (significand * 10 ^ power : ℚ) = n * stepOf x (count + 1)) ∨
      (significand * 10 ^ power : ℚ) < (10 ^ count : ℕ) * stepOf x (count + 1) := by
  by_cases coarse : pointOf x - (count + 1 : ℕ) ≤ power
  · left
    obtain ⟨more, moved⟩ := Int.le.dest coarse
    refine ⟨significand * 10 ^ more, ?_⟩
    rw [stepOf, ← moved, zpow_add₀ (by norm_num), zpow_natCast]
    push_cast
    ring
  · right
    have bound : (significand : ℚ) < 10 ^ (count + 1) := by exact_mod_cast few
    have tens : (0 : ℚ) < 10 ^ power := zpow_pos (by norm_num) _
    calc
      (significand * 10 ^ power : ℚ) < 10 ^ (count + 1) * 10 ^ power :=
        mul_lt_mul_of_pos_right bound tens
      _ = 10 ^ ((count + 1 : ℕ) + power) := by
        rw [zpow_add₀ (by norm_num), zpow_natCast]
      _ ≤ 10 ^ (pointOf x - 1) := zpow_le_zpow_right₀ (by norm_num) (by omega)
      _ = (10 ^ count : ℕ) * stepOf x (count + 1) := (tens_mul_stepOf x count).symm

/-- Below a magnitude, a decimal is not above the lower neighbour. -/
theorem le_lower_of_le_value (nonzero : x.isZero = false)
    (below : (significand * 10 ^ power : ℚ) ≤ x.value) :
    (significand * 10 ^ power : ℚ) ≤ stepsBelow x (count + 1) * stepOf x (count + 1) := by
  have step := stepOf_pos x (count + 1)
  rcases onGrid_or_small few x power with ⟨n, point⟩ | small
  · rw [point] at below ⊢
    apply mul_le_mul_of_nonneg_right _ step.le
    exact_mod_cast mul_stepOf_le_value_iff.mp below
  · apply small.le.trans
    apply mul_le_mul_of_nonneg_right _ step.le
    exact_mod_cast pow_le_stepsBelow nonzero count

/-- Above a magnitude, a decimal is not below the upper neighbour. -/
theorem upper_le_of_value_lt (nonzero : x.isZero = false)
    (above : x.value < (significand * 10 ^ power : ℚ)) :
    ((stepsBelow x (count + 1) + 1 : ℕ) * stepOf x (count + 1) : ℚ) ≤ significand * 10 ^ power := by
  have step := stepOf_pos x (count + 1)
  rcases onGrid_or_small few x power with ⟨n, point⟩ | small
  · rw [point] at above ⊢
    apply mul_le_mul_of_nonneg_right _ step.le
    exact_mod_cast Nat.succ_le_of_lt (value_lt_mul_stepOf_iff.mp above)
  · have counted := mul_stepOf_le_value_iff.mpr (pow_le_stepsBelow nonzero count)
    exact absurd (small.trans_le counted) (not_lt_of_gt above)

/-- A decimal in the interval is no nearer to the magnitude than one of the neighbours, which is in
the interval as well. -/
theorem neighbour_between (nonzero : x.isZero = false)
    (near : (significand * 10 ^ power : ℚ) ∈ x.interval) :
    ((significand * 10 ^ power : ℚ) ≤ stepsBelow x (count + 1) * stepOf x (count + 1) ∧
        (stepsBelow x (count + 1) * stepOf x (count + 1) : ℚ) ∈ x.interval) ∨
      (((stepsBelow x (count + 1) + 1 : ℕ) * stepOf x (count + 1) : ℚ) ≤ significand * 10 ^ power ∧
        ((stepsBelow x (count + 1) + 1 : ℕ) * stepOf x (count + 1) : ℚ) ∈ x.interval) := by
  rcases le_or_gt (significand * 10 ^ power : ℚ) x.value with below | above
  · left
    have outer := le_lower_of_le_value few nonzero below
    refine ⟨outer, (ordConnected_interval x).out near (value_mem_interval x) ⟨outer, ?_⟩⟩
    exact mul_stepOf_le_value_iff.mpr (Nat.le_refl _)
  · right
    have outer := upper_le_of_value_lt few nonzero above
    refine ⟨outer, (ordConnected_interval x).out (value_mem_interval x) near ⟨?_, outer⟩⟩
    exact (value_lt_mul_stepOf_iff.mpr (Nat.lt_succ_self _)).le

/-- If a decimal of some digits is in the interval, some point of the grid of as many digits stands
for the magnitude. -/
theorem onGrid?_ne_none_of_mem_interval (nonzero : x.isZero = false)
    (near : (significand * 10 ^ power : ℚ) ∈ x.interval) : onGrid? tie x (count + 1) ≠ none := by
  rw [onGrid?_eq_chosenPoint]
  apply chosenPoint_ne_none
  rcases neighbour_between few nonzero near with ⟨-, serves⟩ | ⟨-, serves⟩
  · exact .inl (roundsTo_iff_mem.mpr serves)
  · exact .inr (roundsTo_iff_mem.mpr serves)

/-- The point that stands for a magnitude is at least as near to it as any decimal of as many
digits in the interval. -/
theorem abs_sub_le_of_onGrid? (nonzero : x.isZero = false)
    (near : (significand * 10 ^ power : ℚ) ∈ x.interval) {n : Nat}
    (stands : onGrid? tie x (count + 1) = some n) :
    |n * stepOf x (count + 1) - x.value| ≤ |significand * 10 ^ power - x.value| := by
  have lower : stepsBelow x (count + 1) * stepOf x (count + 1) ≤ x.value :=
    mul_stepOf_le_value_iff.mpr (Nat.le_refl _)
  have upper : x.value < (stepsBelow x (count + 1) + 1 : ℕ) * stepOf x (count + 1) :=
    value_lt_mul_stepOf_iff.mpr (Nat.lt_succ_self _)
  have between := neighbour_between few nonzero near
  have cases := cases_of_onGrid? stands
  push_cast at upper between cases
  generalize (significand * 10 ^ power : ℚ) = decimal at between ⊢
  generalize stepOf x (count + 1) = step at lower upper between cases ⊢
  rcases cases with ⟨rfl, nearer⟩ | ⟨rfl, nearer⟩
  · rw [abs_of_nonpos (sub_nonpos.mpr lower)]
    rcases between with ⟨below, -⟩ | ⟨above, serves⟩
    · rw [abs_of_nonpos (by linarith)]
      linarith
    · have closer := nearer serves
      rw [abs_of_nonneg (by linarith)]
      linarith
  · push_cast
    rw [abs_of_nonneg (by linarith)]
    rcases between with ⟨below, serves⟩ | ⟨above, -⟩
    · have closer := nearer serves
      rw [abs_of_nonpos (by linarith)]
      linarith
    · rw [abs_of_nonneg (by linarith)]
      linarith

end Decimal

/-! ## The fewest digits -/

/-- A point of a grid has no more digits than the grid once the zeros at its end are dropped. -/
theorem length_pointDigits_le {n : Nat} (few : n ≤ 10 ^ (count + 1)) :
    (pointDigits x (count + 1) n).digits.length ≤ count + 1 := by
  have kept (digits : List Char) :
      (digits.reverse.dropWhile (· == '0')).reverse.length ≤ digits.length := by
    rw [List.length_reverse]
    exact (List.dropWhile_sublist _).length_le.trans_eq List.length_reverse
  have counted {n : Nat} (small : n < 10 ^ (count + 1)) :
      (Nat.toDigits 10 n).length ≤ count + 1 :=
    (Nat.length_toDigits_le_iff (by decide) (Nat.succ_pos count)).mpr small
  rcases Nat.lt_or_eq_of_le few with less | rfl
  · exact (kept _).trans (counted less)
  · -- The power of ten after the grid ends in a zero.
    have ends : Nat.toDigits 10 (10 ^ (count + 1)) = Nat.toDigits 10 (10 ^ count) ++ ['0'] := by
      rw [Nat.pow_succ', ← Nat.add_zero (10 * 10 ^ count),
        ← Nat.toDigits_append_toDigits (by decide) (Nat.pow_pos (by decide)) (by decide)]
      rfl
    rw [pointDigits, ends, List.reverse_append, List.reverse_singleton, List.singleton_append,
      List.dropWhile_cons_of_pos (by decide)]
    apply (kept _).trans
    exact counted (Nat.pow_lt_pow_right (by decide) (Nat.lt_succ_self count))

/-- The search does not go past a grid on which a point stands for the magnitude. -/
theorem length_digitsFrom_le {last : Nat} (stands : onGrid? tie x (last + 1) ≠ none)
    (fuel : Nat) (early : count ≤ last) :
    (digitsFrom tie x fuel (count + 1)).digits.length ≤ last + 1 := by
  induction fuel generalizing count with
  | zero => exact Nat.zero_le _
  | succ fuel ih =>
      rw [digitsFrom_succ]
      cases found : onGrid? tie x (count + 1) with
      | some n =>
          exact (length_pointDigits_le (onGrid?_point found).1).trans (Nat.succ_le_succ early)
      | none =>
          apply ih
          apply Nat.lt_of_le_of_ne early
          rintro rfl
          exact stands found

/-- A decimal that is read as a magnitude other than zero has some digit. -/
theorem ne_zero_of_read (nonzero : x.isZero = false) {significand : Nat} {power : Int}
    (read : ofDecimal? significand power = some x) : significand ≠ 0 := by
  rintro rfl
  rw [ofDecimal?, if_pos rfl] at read
  rw [← Option.some.inj read] at nonzero
  cases nonzero

/-- No decimal of fewer digits than the shortest is read as a magnitude. -/
theorem length_shortest_le (nonzero : x.isZero = false) {significand digits : Nat} {power : Int}
    (few : significand < 10 ^ digits) (read : ofDecimal? significand power = some x) :
    (x.shortest tie).digits.length ≤ digits := by
  have some_digit := ne_zero_of_read nonzero read
  cases digits with
  | zero => exact absurd (Nat.lt_one_iff.mp few) some_digit
  | succ last =>
      have near := (ofDecimal?_eq_some_iff nonzero some_digit).mp read
      rw [shortest, if_neg (by simp [nonzero])]
      exact length_digitsFrom_le (onGrid?_ne_none_of_mem_interval few nonzero near) 17
        (Nat.zero_le last)

def writtenValue (d : Digits) : ℚ := digitsValue d.digits * 10 ^ (d.point - d.digits.length)

/-- The digits of a point of a grid denote it. -/
theorem writtenValue_pointDigits (x : Magnitude) (count n : Nat) :
    writtenValue (pointDigits x count n) = n * stepOf x count := by
  obtain ⟨zeros, counted, value⟩ := exists_digitsValue_mul_pow n
  rw [writtenValue, pointDigits, stepOf]
  dsimp only
  generalize ((Nat.toDigits 10 n).reverse.dropWhile (· == '0')).reverse = kept at counted value ⊢
  have places : pointOf x + ((Nat.toDigits 10 n).length - count) - kept.length =
      zeros + (pointOf x - count) := by omega
  rw [places, zpow_add₀ (by norm_num), zpow_natCast, ← mul_assoc, ← value]
  push_cast
  rfl

/-- No decimal of as many digits that is read as a magnitude is nearer to it than the shortest
digits. -/
theorem abs_sub_le_of_read (nonzero : x.isZero = false) {significand : Nat} {power : Int}
    (few : significand < 10 ^ (x.shortest tie).digits.length)
    (read : ofDecimal? significand power = some x) :
    |writtenValue (x.shortest tie) - x.value| ≤ |significand * 10 ^ power - x.value| := by
  obtain ⟨tried, n, -, stands, digits⟩ := digitsFrom_eq_pointDigits nonzero tie
    (show 16 + 0 = 16 from rfl)
  have short : x.shortest tie = pointDigits x (tried + 1) n := by
    rw [shortest, if_neg (by simp [nonzero]), digits]
  rw [short] at few
  have inGrid : significand < 10 ^ (tried + 1) :=
    few.trans_le (Nat.pow_le_pow_right (by decide) (length_pointDigits_le (onGrid?_point stands).1))
  rw [short, writtenValue_pointDigits]
  apply abs_sub_le_of_onGrid? inGrid nonzero _ stands
  exact (ofDecimal?_eq_some_iff nonzero (ne_zero_of_read nonzero read)).mp read

/-- The digits that stand for a magnitude: some digits, of which the first one is not zero, that
are read as it; none are read as it that are fewer, and of as many digits none that are nearer. -/
structure IsShortest (x : Magnitude) (d : Digits) : Prop where
  nonempty : d.digits ≠ []
  digits : ∀ c ∈ d.digits, c.isDigit
  leading : d.digits.head? ≠ some '0'
  read : ofDecimal? (digitsValue d.digits) (d.point - d.digits.length) = some x
  fewest : ∀ (significand digits : ℕ) (power : ℤ), significand < 10 ^ digits →
    ofDecimal? significand power = some x → d.digits.length ≤ digits
  nearest : ∀ (significand : ℕ) (power : ℤ), significand < 10 ^ d.digits.length →
    ofDecimal? significand power = some x →
      |writtenValue d - x.value| ≤ |significand * 10 ^ power - x.value|

theorem isShortest_shortest (nonzero : x.isZero = false) (tie : Tie) :
    x.IsShortest (x.shortest tie) where
  nonempty := (shortest_digits nonzero tie).1
  digits := (shortest_digits nonzero tie).2
  leading := by
    cases starts : (x.shortest tie).digits with
    | nil => exact nofun
    | cons c rest =>
        rw [List.head?_cons, ne_eq, Option.some.injEq]
        exact shortest_head_ne_zero nonzero starts
  read := by
    have read := @ofDecimal?_shortest x tie 0 _ (Int.add_zero _)
    rwa [Nat.pow_zero, Nat.mul_one] at read
  fewest _ _ _ few read := length_shortest_le nonzero few read
  nearest _ _ few read := abs_sub_le_of_read nonzero few read

/-! ## Where the point stands -/

namespace IsShortest

variable {d : Digits} (short : x.IsShortest d)

include short

/-- The first digit counts. -/
theorem pow_le_digitsValue : 10 ^ (d.digits.length - 1) ≤ digitsValue d.digits := by
  obtain ⟨c, rest, starts⟩ := List.exists_cons_of_ne_nil short.nonempty
  have digit := short.digits c (by rw [starts]; exact List.mem_cons_self)
  have other : c ≠ '0' := by
    rintro rfl
    exact short.leading (by rw [starts]; rfl)
  have counts : 1 ≤ c.toNat - '0'.toNat := by
    simp only [Char.isDigit, Bool.and_eq_true, decide_eq_true_eq] at digit
    have least : 48 ≤ c.toNat := digit.1
    have differs : c.toNat ≠ 48 := fun same => other (Char.toNat_inj.mp same)
    rw [show '0'.toNat = 48 from rfl]
    omega
  rw [starts, digitsValue_cons, List.length_cons, Nat.add_sub_cancel]
  exact (Nat.le_mul_of_pos_right _ counts).trans (Nat.le_add_right _ _)

theorem writtenValue_mem_interval (nonzero : x.isZero = false) :
    writtenValue d ∈ x.interval := by
  apply (ofDecimal?_eq_some_iff nonzero _).mp short.read
  exact ((Nat.pow_pos (by decide)).trans_le short.pow_le_digitsValue).ne'

/-- The point says between which powers of ten the number stands. -/
theorem writtenValue_bounds :
    (10 : ℚ) ^ (d.point - 1) ≤ writtenValue d ∧ writtenValue d < 10 ^ d.point := by
  have positive : 0 < d.digits.length := List.length_pos_iff.mpr short.nonempty
  have tens : (0 : ℚ) < 10 ^ (d.point - d.digits.length) := zpow_pos (by norm_num) _
  have shifted (places : ℕ) : (10 : ℚ) ^ (places + (d.point - d.digits.length)) =
      (10 ^ places : ℕ) * 10 ^ (d.point - d.digits.length) := by
    rw [zpow_add₀ (by norm_num), zpow_natCast]
    push_cast
    rfl
  have least := short.pow_le_digitsValue
  have most := digitsValue_lt short.digits
  constructor
  · have places : d.point - 1 =
        (d.digits.length - 1 : ℕ) + (d.point - d.digits.length) := by omega
    rw [places, shifted, writtenValue]
    apply mul_le_mul_of_nonneg_right _ tens.le
    exact_mod_cast least
  · have places : d.point = d.digits.length + (d.point - d.digits.length) := by omega
    rw [places, shifted, writtenValue]
    apply mul_lt_mul_of_pos_right _ tens
    exact_mod_cast most

end IsShortest

/-- More digits than some stand before the point exactly if the magnitude is at least the one that
the power of ten is rounded to. -/
theorem lt_point_iff {least : Magnitude} {places : Int}
    (near : (10 : ℚ) ^ places ∈ least.interval)
    (own : places < (least.shortest tie).point) (nonzero : x.isZero = false) :
    places < (x.shortest tie).point ↔ least.units ≤ x.units := by
  have short := isShortest_shortest nonzero tie
  have written := short.writtenValue_mem_interval nonzero
  obtain ⟨above, below⟩ := short.writtenValue_bounds
  constructor
  · intro more
    apply units_le_of_mem_interval near written
    apply le_trans _ above
    exact zpow_le_zpow_right₀ (by norm_num) (by omega)
  · intro atLeast
    by_contra few
    have atMost : x.units ≤ least.units := by
      apply units_le_of_mem_interval written near
      apply below.le.trans
      exact zpow_le_zpow_right₀ (by norm_num) (by omega)
    rw [eq_of_units_eq (Nat.le_antisymm atMost atLeast)] at few
    exact few own

end BlockForge.Magnitude
