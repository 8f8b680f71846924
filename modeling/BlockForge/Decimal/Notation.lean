/-
# Notations of decimals

How digits become text. Plain notation writes every digit in its place and pads with
zeros; scientific notation writes one digit before the point and a power of ten. Which of
the two a format uses, and for which numbers, is one record of that format, so that the
formats of this library differ in data and not in code.

Integers are written in decimal digits without padding, a negative one after a minus sign,
in every format alike. The bounds of 64-bit integers, which several formats refer to, stand
here as well.
-/

import BlockForge.Decimal.Shortest

namespace BlockForge

/-! ## Doubles -/

/-- Every digit in its place. Where no digit stands after the point, a format either ends
the text there or goes on with the fraction `.0`. -/
def Digits.plain (wholeFraction : Bool) (d : Digits) : List Char :=
  if d.point ≤ 0 then
    '0' :: '.' :: List.replicate (-d.point).toNat '0' ++ d.digits
  else if d.point < d.digits.length then
    d.digits.take d.point.toNat ++ '.' :: d.digits.drop d.point.toNat
  else
    d.digits ++ List.replicate (d.point.toNat - d.digits.length) '0'
      ++ (if wholeFraction then ['.', '0'] else [])

/-- One digit before the point and a power of ten, whose plus sign some formats write. -/
def Digits.scientific (plusSign : Bool) (d : Digits) : List Char :=
  let power := d.point - 1
  let fraction :=
    match d.digits.drop 1 with
    | [] => []
    | digits => '.' :: digits
  let sign := if power < 0 then ['-'] else if plusSign then ['+'] else []
  d.digits.take 1 ++ fraction ++ 'e' :: sign ++ Nat.toDigits 10 power.natAbs

/-- The spelling of doubles in one format. -/
structure DecimalFormat where
  /-- Numbers with no more digits than this before the point are plain. -/
  plainUpTo : Option Int
  /-- Numbers with more digits than this before the point are plain; zeros after the point
  count negatively. -/
  plainAbove : Option Int
  /-- Whether a whole number is written with the fraction `.0`. -/
  wholeFraction : Bool
  tie : Tie
  /-- Whether a zero with a minus sign is written with it. -/
  signedZero : Bool
  infinity : List Char
  notANumber : List Char

def DecimalFormat.magnitude (format : DecimalFormat) (x : Magnitude) : List Char :=
  let digits := x.shortest format.tie
  let plain :=
    format.plainUpTo.all (digits.point ≤ ·) && format.plainAbove.all (· < digits.point)
  if plain then digits.plain format.wholeFraction else digits.scientific true

def signChars (negative : Bool) : List Char :=
  if negative then ['-'] else []

def DecimalFormat.write (format : DecimalFormat) : Binary64 → List Char
  | .finite negative x =>
    signChars (negative && (format.signedZero || !x.isZero)) ++ format.magnitude x
  | .infinite negative => signChars negative ++ format.infinity
  | .nan => format.notANumber

/-- Doubles in messages: always plain, whole numbers without a fraction. -/
def plainDecimal : DecimalFormat where
  plainUpTo := none
  plainAbove := none
  wholeFraction := false
  tie := .away
  signedZero := true
  infinity := ['i', 'n', 'f']
  notANumber := ['N', 'a', 'N']

/-! ## Integers -/

def natChars (n : Nat) : List Char :=
  Nat.toDigits 10 n

/-- An integer in decimal digits, after a minus sign where it is negative. -/
def intChars (i : Int) : List Char :=
  signChars (i < 0) ++ natChars i.natAbs

def fitsSigned64 (i : Int) : Bool :=
  -9223372036854775808 ≤ i && i ≤ 9223372036854775807

/-- The largest whole number of 64 bits without a sign. -/
def greatestUnsigned64 : Nat := 18446744073709551615

/-- A natural number in decimal digits, with zeros before it up to a width. -/
def paddedChars (width n : Nat) : List Char :=
  List.replicate (width - (natChars n).length) '0' ++ natChars n

end BlockForge
