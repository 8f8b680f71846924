/-
# Reading decimals

A decimal numeral is a natural number times a power of ten. The nearest double to it is
found in exact arithmetic after the exponents that decide the answer by themselves have
been set aside, so that a numeral with a huge exponent costs no more than another.

Two readers are given. The first takes the text of one double and rounds correctly. The
second, which document readers use, is told the digits it may use: it rounds the digits
and then the power of ten and combines the two by one more rounding, which is not always
the nearest double.
-/

import BlockForge.Decimal.Binary64
import BlockForge.Decimal.Shortest

namespace BlockForge

namespace Magnitude

/-- The magnitude nearest to `significand · 10^power`; nothing past the largest double. -/
def ofDecimal? (significand : Nat) (power : Int) : Option Magnitude :=
  let point := (digitCount significand : Int) + power
  if significand = 0 then some zero
  else if 310 < point then none
  else if point < -330 then some zero
  else if 0 ≤ power then ofRatio? (significand * Nat.pow 10 power.toNat) 1
  else ofRatio? significand (Nat.pow 10 (-power).toNat)

/-- The magnitude nearest to a power of ten that is a double's magnitude. -/
def powerOfTen? (power : Nat) : Option Magnitude := ofNat? (Nat.pow 10 power)

/-- The largest power of ten that is used as one factor. -/
def greatestPower : Nat := 308

/-- Divides by `10^308` the given number of times and by `10^rest` at the end, rounding
after each step. Zero stays zero, so the steps that are left over then are not taken. -/
def scaleDown (rest : Nat) : Nat → Magnitude → Option Magnitude
  | 0, x => (powerOfTen? rest).bind (x.div? ·)
  | steps + 1, x =>
    if x.isZero then some x
    else ((powerOfTen? greatestPower).bind (x.div? ·)).bind (scaleDown rest steps)

/-- `x / 10^power` in steps of at most `10^308`. -/
def divPower (x : Magnitude) (power : Nat) : Option Magnitude :=
  let steps := (power - 1) / greatestPower
  scaleDown (power - steps * greatestPower) steps x

/-- `significand · 10^power` by rounding the significand, then the power of ten, and then
their product or quotient; nothing past the largest double. -/
def ofScaled? (significand : Nat) (power : Int) : Option Magnitude :=
  (ofNat? significand).bind fun x =>
    if power < 0 then x.divPower (-power).toNat
    else if power.toNat ≤ greatestPower then (powerOfTen? power.toNat).bind (x.mul? ·)
    else if x.isZero then some x
    else none

end Magnitude

def digitsValue (digits : List Char) : Nat :=
  digits.foldl (fun n c => 10 * n + (c.toNat - '0'.toNat)) 0

/-- An integer written with an optional sign and at least one digit. -/
def signedDigits? (text : List Char) : Option Int :=
  let (negative, digits) :=
    match text with
    | '-' :: rest => (true, rest)
    | '+' :: rest => (false, rest)
    | rest => (false, rest)
  if digits.isEmpty || !digits.all Char.isDigit then none
  else some (if negative then -(digitsValue digits : Int) else digitsValue digits)

namespace Binary64

/-- A double from digits with an optional fraction and an optional power of ten, correctly
rounded; at least one digit stands before or after the point. -/
def ofUnsigned? (negative : Bool) (text : List Char) : Option Binary64 :=
  let whole := text.takeWhile Char.isDigit
  let afterWhole := text.dropWhile Char.isDigit
  let (fraction, afterFraction) :=
    match afterWhole with
    | '.' :: rest => (rest.takeWhile Char.isDigit, rest.dropWhile Char.isDigit)
    | rest => ([], rest)
  let power? :=
    match afterFraction with
    | [] => some 0
    | c :: rest => if c == 'e' || c == 'E' then signedDigits? rest else none
  if whole.isEmpty && fraction.isEmpty then none
  else
    power?.map fun power =>
      ofMagnitude negative
        (Magnitude.ofDecimal? (digitsValue (whole ++ fraction)) (power - fraction.length))

/-- A double from its text: a decimal numeral or one of the words for infinity and for not
a number in any case, with an optional sign. -/
def ofText? (text : String) : Option Binary64 :=
  let (negative, rest) :=
    match text.toList with
    | '-' :: rest => (true, rest)
    | '+' :: rest => (false, rest)
    | rest => (false, rest)
  match String.ofList (rest.map Char.toLower) with
  | "inf" => some (infinite negative)
  | "infinity" => some (infinite negative)
  | "nan" => some nan
  | _ => ofUnsigned? negative rest

end Binary64

end BlockForge
