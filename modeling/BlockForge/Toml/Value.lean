/-
# TOML values

A TOML document is a table: an ordered list of keys with values. Integers are exact, however
large, since the size of a number matters to its readers only. Moments in time are kept as
they are written, and so are floats past the largest double. No description holds one, so all
that matters is that they are values of kinds of their own.

Numbers, truth values, the words for infinity and for not a number, and moments in time may
stand unquoted. Each kind is recognized from its whole text, and no text belongs to two
kinds. Digits may be grouped by single underscores between two of them. Decimal integers have
no leading zeros, and only they have signs. A float needs digits on both sides of its point.
-/

import BlockForge.Decimal.Numeral
import BlockForge.Time.Timestamp

namespace BlockForge.Toml

inductive Value where
  | string (text : String)
  | integer (i : Int)
  | float (x : Binary64)
  /-- A float past the largest double. -/
  | outsized (text : String)
  | bool (b : Bool)
  | moment (text : String)
  | array (items : List Value)
  | table (entries : List (String × Value))

abbrev Entries := List (String × Value)

/-! ## Unquoted scalars -/

/-- The digits of a row in which single underscores may stand between two of them. -/
def ungrouped? (isDigit : Char → Bool) : List Char → Option (List Char)
  | [] => none
  | [c] => if isDigit c then some [c] else none
  | c :: '_' :: rest => if isDigit c then (ungrouped? isDigit rest).map (c :: ·) else none
  | c :: d :: rest =>
    if isDigit c then (ungrouped? isDigit (d :: rest)).map (c :: ·) else none

/-- The value of a digit in bases up to sixteen. -/
def digitOf (c : Char) : Nat :=
  if c.isDigit then c.toNat - '0'.toNat else c.toLower.toNat - 'a'.toNat + 10

def isDigitOf (base : Nat) (c : Char) : Bool :=
  (c.isDigit || ('a' ≤ c && c ≤ 'f') || ('A' ≤ c && c ≤ 'F')) && digitOf c < base

/-- The value of digits in a base. -/
def valueIn (base : Nat) (digits : List Char) : Nat :=
  digits.foldl (fun n c => base * n + digitOf c) 0

/-- Decimal digits that do not start with a zero, unless zero is all there is. -/
def decimalDigits? (text : List Char) : Option (List Char) :=
  match ungrouped? Char.isDigit text with
  | some digits => if digits.head? = some '0' && digits.length ≠ 1 then none else some digits
  | none => none

/-- Takes a sign off a text. -/
def splitSign (text : List Char) : Option Bool × List Char :=
  match text with
  | '-' :: rest => (some true, rest)
  | '+' :: rest => (some false, rest)
  | rest => (none, rest)

def integer? (text : List Char) : Option Value :=
  let inBase (base : Nat) (digits : List Char) :=
    (ungrouped? (isDigitOf base) digits).map fun digits => .integer (valueIn base digits)
  match text with
  | '0' :: 'x' :: digits => inBase 16 digits
  | '0' :: 'o' :: digits => inBase 8 digits
  | '0' :: 'b' :: digits => inBase 2 digits
  | text =>
    let (sign, digits) := splitSign text
    (decimalDigits? digits).map fun digits =>
      let n : Int := digitsValue digits
      .integer (if sign = some true then -n else n)

/-- The power of ten after the letter of a float. -/
def exponent? (text : List Char) : Option Int :=
  let (sign, digits) := splitSign text
  (ungrouped? Char.isDigit digits).map fun digits =>
    let n : Int := digitsValue digits
    if sign = some true then -n else n

/-- A float from its text, correctly rounded. At least one of fraction and power of ten is
there. -/
def float? (text : List Char) : Option Value := do
  let (sign, unsigned) := splitSign text
  let isMark (c : Char) : Bool := c == 'e' || c == 'E'
  let number := unsigned.takeWhile (!isMark ·)
  let power ←
    match unsigned.dropWhile (!isMark ·) with
    | [] => some none
    | _ :: power => (exponent? power).map some
  let whole ← decimalDigits? (number.takeWhile (· != '.'))
  let fraction ←
    match number.dropWhile (· != '.') with
    | [] => if power.isSome then some [] else none
    | _ :: fraction => ungrouped? Char.isDigit fraction
  match Magnitude.ofDecimal? (digitsValue (whole ++ fraction))
      (power.getD 0 - (fraction.length : Int)) with
  | some magnitude => return .float (.finite (sign = some true) magnitude)
  | none => return .outsized (String.ofList text)

/-- A word that stands for a value. -/
def word? (text : List Char) : Option Value :=
  match String.ofList text with
  | "true" => some (.bool true)
  | "false" => some (.bool false)
  | "inf" => some (.float (.infinite false))
  | "+inf" => some (.float (.infinite false))
  | "-inf" => some (.float (.infinite true))
  | "nan" => some (.float .nan)
  | "+nan" => some (.float .nan)
  | "-nan" => some (.float .nan)
  | _ => none

def twoDigits? (a b : Char) : Option Nat :=
  if a.isDigit && b.isDigit then some (digitsValue [a, b]) else none

/-- Whether four, two and two digits are a date. -/
def isDate (year month day : List Char) : Bool :=
  (year ++ month ++ day).all Char.isDigit
    && 1 ≤ digitsValue month && digitsValue month ≤ 12
    && 1 ≤ digitsValue day && digitsValue day ≤ daysOfMonth (digitsValue year) (digitsValue month)

def afterDate? (text : List Char) : Option (List Char) :=
  match text with
  | y :: e :: a :: r :: '-' :: m :: n :: '-' :: d :: f :: rest =>
    if isDate [y, e, a, r] [m, n] [d, f] then some rest else none
  | _ => none

/-- Past the hours and minutes at the start of a text. -/
def afterMinutes? (text : List Char) : Option (List Char) :=
  match text with
  | h :: i :: ':' :: m :: n :: rest => do
    let hours ← twoDigits? h i
    let minutes ← twoDigits? m n
    if hours ≤ 23 && minutes ≤ 59 then some rest else none
  | _ => none

/-- Past a time at the start of a text. Seconds may be left out, and a fraction only with
them. -/
def afterTime? (text : List Char) : Option (List Char) := do
  let rest ← afterMinutes? text
  match rest with
  | ':' :: s :: t :: rest =>
    let seconds ← twoDigits? s t
    if 60 < seconds then none
    else
      match rest with
      | '.' :: fraction =>
        if fraction.head?.any Char.isDigit then some (fraction.dropWhile Char.isDigit)
        else none
      | rest => some rest
  | ':' :: _ => none
  | rest => some rest

def isOffset (text : List Char) : Bool :=
  match text with
  | ['Z'] => true
  | ['z'] => true
  | '+' :: rest => afterMinutes? rest == some []
  | '-' :: rest => afterMinutes? rest == some []
  | _ => false

/-- Whether a text is a moment: a time, a date, or a date and a time with or without an
offset. -/
def isMoment (text : List Char) : Bool :=
  match afterDate? text with
  | none => afterTime? text == some []
  | some [] => true
  | some (mark :: time) =>
    (mark == 'T' || mark == 't' || mark == ' ')
      && (afterTime? time).any fun rest => rest.isEmpty || isOffset rest

def scalar? (text : List Char) : Option Value :=
  (word? text) <|> (integer? text) <|> (float? text)
    <|> (if isMoment text then some (.moment (String.ofList text)) else none)

end BlockForge.Toml
