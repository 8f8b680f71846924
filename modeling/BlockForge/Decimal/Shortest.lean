/-
# Shortest digits

The digits that stand for a magnitude are the fewest that read back as it. All numbers
that round to a magnitude form an interval around it, so a decimal grid serves if one of
its points lies in that interval, and then one of the two points next to the magnitude
does. The grids are tried from one digit on, in exact arithmetic; of two points that
serve, the nearer one is taken, and a tie is decided by the caller.
-/

import BlockForge.Decimal.Binary64

namespace BlockForge

/-- Which of two equally near decimals stands for a number. -/
inductive Tie where
  /-- The one whose last digit is even. -/
  | even
  /-- The larger one. -/
  | away
  deriving DecidableEq

/-- Decimal digits with a point: `digits` stands for `0.d₁d₂… · 10^point`. -/
structure Digits where
  digits : List Char
  /-- How many digits stand before the decimal point. -/
  point : Int
  deriving DecidableEq

namespace Magnitude

/-- The number of decimal digits of a natural number; zero has none. -/
def digitCount (n : Nat) : Nat :=
  if n = 0 then 0 else digitCount (n / 10) + 1
  termination_by n

/-- How often a quotient below 1 is multiplied by ten to reach 1, looking at most `fuel`
times. -/
def leadingZeros (denominator : Nat) : Nat → Nat → Nat
  | 0, _ => 0
  | fuel + 1, numerator =>
    if denominator ≤ numerator then 0 else leadingZeros denominator fuel (10 * numerator) + 1

/-- The number of digits before the decimal point: the least `p` with `x < 10^p`, for a
magnitude that is not zero. Below 1 it counts the zeros after the point, negatively. -/
def pointOf (x : Magnitude) : Int :=
  if unitsPerOne ≤ x.units then (digitCount x.floor : Int)
  else 1 - (leadingZeros unitsPerOne 400 x.units : Int)

/-- Whether a quotient lies among the numbers that round to a magnitude. The bounds are
half-way to the neighbours, the lower one nearer where the mantissa is at its least, and
they belong to the interval exactly when the mantissa is even. -/
def roundsTo (x : Magnitude) (numerator denominator : Nat) : Bool :=
  let quarter := Nat.pow 2 x.exponent
  let below := if x.mantissa = leastFull ∧ 0 < x.exponent then quarter else 2 * quarter
  let lower := (4 * x.units - below) * denominator
  let upper := (4 * x.units + 2 * quarter) * denominator
  let value := 4 * numerator * unitsPerOne
  if x.mantissa % 2 = 0 then lower ≤ value && value ≤ upper
  else lower < value && value < upper

/-- The grid of decimals with `count` digits around a magnitude: the point `n` of the grid
is `n · fst / snd`. -/
def gridStep (x : Magnitude) (count : Nat) : Nat × Nat :=
  let power := pointOf x - count
  if 0 ≤ power then (Nat.pow 10 power.toNat, 1) else (1, Nat.pow 10 (-power).toNat)

/-- The point of a grid that stands for a magnitude, if one of its two neighbours on that
grid rounds to it. -/
def onGrid? (tie : Tie) (x : Magnitude) (count : Nat) : Option Nat :=
  let (up, down) := gridStep x count
  let scaled := x.units * down
  let width := unitsPerOne * up
  let lower := scaled / width
  let remainder := scaled % width
  let lowerServes := roundsTo x (lower * up) down
  let upperServes := roundsTo x ((lower + 1) * up) down
  if lowerServes && upperServes then
    if 2 * remainder < width then some lower
    else if width < 2 * remainder then some (lower + 1)
    else
      match tie with
      | .even => some (lower + lower % 2)
      | .away => some (lower + 1)
  else if lowerServes then some lower
  else if upperServes then some (lower + 1)
  else none

/-- The first grid from `count` digits on that serves, at most `fuel` grids being tried.
The last digits that are zero carry nothing and are left out; a point that has gained a
digit moves the decimal point. -/
def digitsFrom (tie : Tie) (x : Magnitude) : Nat → Nat → Digits
  | 0, _ => ⟨[], 0⟩
  | fuel + 1, count =>
    match onGrid? tie x count with
    | some n =>
      let all := Nat.toDigits 10 n
      ⟨(all.reverse.dropWhile (· == '0')).reverse, pointOf x + ((all.length : Int) - count)⟩
    | none => digitsFrom tie x fuel (count + 1)

/-- The shortest digits that read back as a magnitude; seventeen always suffice. Zero has
the one digit `0`. -/
def shortest (tie : Tie) (x : Magnitude) : Digits :=
  if x.isZero then ⟨['0'], 1⟩ else digitsFrom tie x 17 1

end Magnitude

end BlockForge
