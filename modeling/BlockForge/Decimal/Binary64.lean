/-
# Doubles as exact numbers

A double is kept as what it denotes, so that every statement about it is a statement about
natural numbers. A finite one is a sign and a magnitude, and a magnitude is
`mantissa · 2^exponent` in units of the smallest positive double. The bound on the mantissa
and the rule that it is full unless the exponent is zero make this form unique: two
magnitudes are equal exactly when they denote the same number.

Rounding is to the nearest magnitude, a tie going to the even mantissa. It is stated for
quotients of natural numbers, which covers decimal numerals, products and quotients alike.
Not-a-number is one value here: no reader or printer of this library tells one such bit
pattern from another.
-/

namespace BlockForge

/-- The least mantissa with 53 bits, `2^52`. -/
abbrev leastFull : Nat := 4503599627370496

/-- The bound of mantissas, `2^53`: they have at most 53 bits. -/
abbrev mantissaBound : Nat := 9007199254740992

/-- The finite doubles that are not negative, zero included, counted in units of the
smallest positive one. -/
structure Magnitude where
  mantissa : Nat
  /-- How many binary places the significant bits are moved to the left. -/
  exponent : Nat
  /-- At most 53 bits, a bounded exponent, and no smaller exponent that would do. -/
  canonical : mantissa < mantissaBound ∧ exponent ≤ 2045
    ∧ (exponent = 0 ∨ leastFull ≤ mantissa)
  deriving DecidableEq

namespace Magnitude

/-- The number of units that make up 1. -/
def unitsPerOne : Nat := Nat.pow 2 1074

/-- The value in units of the smallest positive double. -/
def units (x : Magnitude) : Nat :=
  x.mantissa * Nat.pow 2 x.exponent

def zero : Magnitude := ⟨0, 0, by decide⟩

def isZero (x : Magnitude) : Bool := x.mantissa == 0

/-- The natural number nearest to a quotient, the even one of two that are equally near. -/
def nearestEven (numerator denominator : Nat) : Nat :=
  let quotient := numerator / denominator
  let remainder := numerator % denominator
  if 2 * remainder < denominator then quotient
  else if denominator < 2 * remainder then quotient + 1
  else quotient + quotient % 2

/-- The magnitude with the given bits and exponent, where a mantissa that has just reached
54 bits is moved one place to the right. Nothing is returned past the largest double. -/
def ofBits? (mantissa exponent : Nat) : Option Magnitude :=
  let moved :=
    if mantissa = mantissaBound then (leastFull, exponent + 1) else (mantissa, exponent)
  if canonical : moved.1 < mantissaBound ∧ moved.2 ≤ 2045
      ∧ (moved.2 = 0 ∨ leastFull ≤ moved.1) then
    some ⟨moved.1, moved.2, canonical⟩
  else none

/-- The magnitude nearest to a quotient; nothing if that lies past the largest double. -/
def ofRatio? (numerator denominator : Nat) : Option Magnitude :=
  let scaled := numerator * unitsPerOne
  let exponent := (scaled / denominator).log2 - 52
  ofBits? (nearestEven scaled (denominator * Nat.pow 2 exponent)) exponent

def ofNat? (n : Nat) : Option Magnitude := ofRatio? n 1

/-- The product of two magnitudes, rounded; nothing past the largest double. -/
def mul? (x y : Magnitude) : Option Magnitude :=
  ofRatio? (x.units * y.units) (unitsPerOne * unitsPerOne)

/-- The quotient of two magnitudes, rounded; nothing past the largest double. -/
def div? (x y : Magnitude) : Option Magnitude :=
  ofRatio? x.units y.units

def atMost (x y : Magnitude) : Bool := x.units ≤ y.units

def isWhole (x : Magnitude) : Bool := x.units % unitsPerOne == 0

/-- The whole part of a magnitude. -/
def floor (x : Magnitude) : Nat := x.units / unitsPerOne

end Magnitude

inductive Binary64 where
  /-- A finite double; zero occurs with both signs. -/
  | finite (negative : Bool) (magnitude : Magnitude)
  | infinite (negative : Bool)
  | nan
  deriving DecidableEq

namespace Binary64

/-- A magnitude that may have overflowed, with a sign. -/
def ofMagnitude (negative : Bool) : Option Magnitude → Binary64
  | some magnitude => finite negative magnitude
  | none => infinite negative

def zero : Binary64 := finite false Magnitude.zero

/-- The double nearest to an integer. -/
def ofInt (n : Int) : Binary64 :=
  ofMagnitude (n < 0) (Magnitude.ofNat? n.natAbs)

/-- Whether a double is neither an infinity nor not a number. -/
def isFinite : Binary64 → Bool
  | finite .. => true
  | _ => false

/-- The integer that a double denotes, if it denotes one. -/
def toInt? : Binary64 → Option Int
  | finite negative magnitude =>
    if magnitude.isWhole then
      some (if negative then -(magnitude.floor : Int) else magnitude.floor)
    else none
  | _ => none

end Binary64

end BlockForge
