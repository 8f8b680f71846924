/-
# Timestamps

A moment in universal time as calendar and clock show it: a date of the Gregorian calendar,
extended to both sides, and a time of day down to the nanosecond. A leap second is the last
second of a minute with a second billion of nanoseconds.

The fields are bounded by the type, so two timestamps are equal exactly when they show the
same, and their order is that of their fields. Moving between offsets changes a date by at
most one day, so no count of days since some epoch is needed.

A clock counts the nanoseconds since the start of 1970 and knows no leap seconds. A count of
days is turned into a date by cutting the calendar into spans of 400 years, which all have
the same number of days. The years of a span start in March, so that a leap day is the last
day of its year and the lengths of the months before it follow one rule.
-/

import BlockForge.Decimal.Notation

namespace BlockForge

def daysOfMonth (year : Int) (month : Nat) : Nat :=
  if month = 2 then
    if year % 4 = 0 ∧ (year % 100 ≠ 0 ∨ year % 400 = 0) then 29 else 28
  else if month = 4 ∨ month = 6 ∨ month = 9 ∨ month = 11 then 30
  else 31

/-- A date. -/
structure Date where
  year : Int
  month : Nat
  day : Nat
  exists_day : (-262143 ≤ year ∧ year ≤ 262142) ∧ (1 ≤ month ∧ month ≤ 12)
    ∧ 1 ≤ day ∧ day ≤ daysOfMonth year month
  deriving DecidableEq

namespace Date

def ofFields? (year : Int) (month day : Nat) : Option Date :=
  if h : (-262143 ≤ year ∧ year ≤ 262142) ∧ (1 ≤ month ∧ month ≤ 12)
      ∧ 1 ≤ day ∧ day ≤ daysOfMonth year month then
    some ⟨year, month, day, h⟩
  else none

def next? (date : Date) : Option Date :=
  if date.day < daysOfMonth date.year date.month then
    ofFields? date.year date.month (date.day + 1)
  else if date.month < 12 then ofFields? date.year (date.month + 1) 1
  else ofFields? (date.year + 1) 1 1

def previous? (date : Date) : Option Date :=
  if 1 < date.day then ofFields? date.year date.month (date.day - 1)
  else if 1 < date.month then
    ofFields? date.year (date.month - 1) (daysOfMonth date.year (date.month - 1))
  else ofFields? (date.year - 1) 12 31

/-- The first day of the first year. -/
def origin : Date := ⟨1, 1, 1, by decide⟩

end Date

/-- The nanoseconds of a second. -/
abbrev nanosPerSecond : Nat := 1000000000

/-- A moment in universal time. -/
structure Timestamp where
  date : Date
  hour : Nat
  minute : Nat
  /-- The second, a leap second being counted as the 59th. -/
  second : Nat
  /-- The nanoseconds; a leap second has a billion more of them. -/
  nano : Nat
  exists_time : hour < 24 ∧ minute < 60 ∧ second < 60
    ∧ (nano < nanosPerSecond ∨ (second = 59 ∧ nano < 2 * nanosPerSecond))
  deriving DecidableEq

namespace Timestamp

def ofFields? (date : Date) (hour minute second nano : Nat) : Option Timestamp :=
  if h : hour < 24 ∧ minute < 60 ∧ second < 60
      ∧ (nano < nanosPerSecond ∨ (second = 59 ∧ nano < 2 * nanosPerSecond)) then
    some ⟨date, hour, minute, second, nano, h⟩
  else none

/-- The fields of a timestamp from the largest to the smallest. -/
def fields (t : Timestamp) : List Int :=
  [t.date.year, t.date.month, t.date.day, t.hour, t.minute, t.second, t.nano]

/-- Whether a list of fields is before another one. -/
def fieldsBefore : List Int → List Int → Bool
  | a :: as, b :: bs => a < b || (a == b && fieldsBefore as bs)
  | _, _ => false

def isBefore (a b : Timestamp) : Bool := fieldsBefore a.fields b.fields

/-- The universal time of a local one, which is ahead of it by some minutes. -/
def ofLocal? (date : Date) (hour minute second nano : Nat) (ahead : Int) : Option Timestamp :=
  let minutes : Int := 60 * hour + minute - ahead
  let moved :=
    if minutes < 0 then date.previous?.map (·, minutes + 1440)
    else if 1440 ≤ minutes then date.next?.map (·, minutes - 1440)
    else some (date, minutes)
  moved.bind fun (date, minutes) =>
    ofFields? date (minutes.toNat / 60) (minutes.toNat % 60) second nano

/-- A year: four digits, or a sign and at least four digits for years that have no place in
them. -/
def yearChars (year : Int) : List Char :=
  if 0 ≤ year ∧ year ≤ 9999 then paddedChars 4 year.natAbs
  else (if year < 0 then '-' else '+') :: paddedChars 4 year.natAbs

def dateChars (t : Timestamp) : List Char :=
  yearChars t.date.year ++ '-' :: paddedChars 2 t.date.month ++ '-' :: paddedChars 2 t.date.day

/-- The time of day of a timestamp in full seconds. A leap second is the 60th. -/
def clockChars (t : Timestamp) : List Char :=
  paddedChars 2 t.hour ++ ':' :: paddedChars 2 t.minute
    ++ ':' :: paddedChars 2 (t.second + t.nano / nanosPerSecond)

/-- The fraction of a second with as many digits as it needs: none, three, six or nine. -/
def fractionChars (t : Timestamp) : List Char :=
  let nano := t.nano % nanosPerSecond
  if nano = 0 then []
  else if nano % 1000000 = 0 then '.' :: paddedChars 3 (nano / 1000000)
  else if nano % 1000 = 0 then '.' :: paddedChars 6 (nano / 1000)
  else '.' :: paddedChars 9 nano

/-- A timestamp without its offset. -/
def plainChars (t : Timestamp) : List Char :=
  t.dateChars ++ 'T' :: t.clockChars ++ t.fractionChars

/-- A timestamp as it is stored. -/
def storedText (t : Timestamp) : String := String.ofList (t.plainChars ++ ['Z'])

def reportText (t : Timestamp) : String :=
  String.ofList (t.plainChars ++ ['+', '0', '0', ':', '0', '0'])

def listText (t : Timestamp) : String :=
  String.ofList (t.dateChars ++ ' ' :: t.clockChars ++ [' ', 'U', 'T', 'C'])

end Timestamp

/-! ## Readings of a clock -/

/-- The number of days in 400 years. -/
def daysOfSpan : Nat := 146097

/-- The days from the first of March of the year 0 to the start of 1970. -/
def daysToEpoch : Nat := 719468

/-- The date that comes some days after the start of 1970. -/
def Date.ofDays? (days : Nat) : Option Date :=
  let day := days + daysToEpoch
  let span := day / daysOfSpan
  let day := day % daysOfSpan
  let year := (day - day / 1460 + day / 36524 - day / 146096) / 365
  let day := day - (365 * year + year / 4 - year / 100)
  let month := (5 * day + 2) / 153
  let day := day - (153 * month + 2) / 5
  let year := 400 * span + year
  if month < 10 then ofFields? year (month + 3) (day + 1)
  else ofFields? (year + 1) (month - 9) (day + 1)

/-- The moment that comes some nanoseconds after the start of 1970. -/
def Timestamp.ofNanoseconds? (count : Nat) : Option Timestamp :=
  let second := count / nanosPerSecond
  let minute := second / 60
  let hour := minute / 60
  (Date.ofDays? (hour / 24)).bind fun date =>
    ofFields? date (hour % 24) (minute % 60) (second % 60) (count % nanosPerSecond)

end BlockForge
