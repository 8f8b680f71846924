/-
# Reading timestamps

A timestamp is read from its text leniently: fields may have fewer digits, blanks may stand
before a field, a blank or a letter of either case between date and time, and the offset
may be a letter, a word or hours and minutes with or without a colon. What comes back is
the same moment in universal time.

A text that is no timestamp fails for the first reason met from its front. That fields are
in range is checked as they are read; that the day exists is checked at the end.
-/

import BlockForge.Decimal.Numeral
import BlockForge.Text.Words
import BlockForge.Time.Timestamp

namespace BlockForge.Timestamp

inductive Fault where
  | invalid
  | tooShort
  | outOfRange
  | tooLong
  /-- The moment is outside of the years reckoned with. -/
  | impossible
  deriving DecidableEq

def Fault.message : Fault → String
  | invalid => "input contains invalid characters"
  | tooShort => "premature end of input"
  | outOfRange => "input is out of range"
  | tooLong => "trailing input"
  | impossible => "no possible date and time matching input"

/-- Reads at least one and at most `width` digits. -/
def digits (width : Nat) (text : List Char) : Except Fault (Nat × List Char) :=
  match text with
  | [] => .error .tooShort
  | first :: _ =>
    if first.isDigit then
      let row := (text.take width).takeWhile Char.isDigit
      .ok (digitsValue row, text.drop row.length)
    else .error .invalid

/-- Reads a field of at most two digits that lies between two bounds. -/
def field (least greatest : Nat) (text : List Char) : Except Fault (Nat × List Char) := do
  let (n, rest) ← digits 2 (Text.trimStart text)
  if least ≤ n ∧ n ≤ greatest then return (n, rest) else throw .outOfRange

/-- Reads a year: four digits at most, or a sign and any number of them. -/
def year (text : List Char) : Except Fault (Int × List Char) := do
  let bounded (year : Int) (rest : List Char) : Except Fault (Int × List Char) :=
    if -2147483648 ≤ year ∧ year ≤ 2147483647 then return (year, rest) else throw .outOfRange
  match Text.trimStart text with
  | '-' :: text =>
    let (n, rest) ← digits text.length text
    bounded (-(n : Int)) rest
  | '+' :: text =>
    let (n, rest) ← digits text.length text
    bounded n rest
  | text =>
    let (n, rest) ← digits 4 text
    bounded n rest

def mark (c : Char) (text : List Char) : Except Fault (List Char) :=
  match Text.trimStart text with
  | [] => .error .tooShort
  | next :: rest => if next = c then .ok rest else .error .invalid

/-- Reads a fraction of a second, if there is one. Digits past the ninth are passed over. -/
def fraction (text : List Char) : Except Fault (Nat × List Char) :=
  match text with
  | '.' :: text => do
    let (n, rest) ← digits 9 text
    let read := text.length - rest.length
    return (n * Nat.pow 10 (9 - read), rest.dropWhile Char.isDigit)
  | text => .ok (0, text)

def twoDigits (text : List Char) : Except Fault (Nat × List Char) :=
  match text with
  | a :: b :: rest =>
    if a.isDigit ∧ b.isDigit then .ok (digitsValue [a, b], rest) else .error .invalid
  | [a] => if a.utf8Size = 1 then .error .tooShort else .error .invalid
  | [] => .error .tooShort

/-- Reads the minutes of an offset that come after its sign. -/
def offsetMinutes (text : List Char) : Except Fault (Nat × List Char) := do
  let (hours, rest) ← twoDigits text
  let (minutes, rest) ← twoDigits (rest.dropWhile fun c => c == ':' || Text.isBlank c)
  if 59 < minutes then throw .outOfRange
  return (60 * hours + minutes, rest)

/-- Reads an offset from universal time in minutes. -/
def offset (text : List Char) : Except Fault (Int × List Char) :=
  let isWord := (text.take 3).map Char.toUpper = ['U', 'T', 'C']
  if isWord then .ok (0, text.drop 3)
  else
    match text with
    | [] => .error .tooShort
    | 'Z' :: rest => .ok (0, rest)
    | 'z' :: rest => .ok (0, rest)
    | '+' :: rest => (offsetMinutes rest).map fun (minutes, rest) => ((minutes : Int), rest)
    | '-' :: rest => (offsetMinutes rest).map fun (minutes, rest) => (-(minutes : Int), rest)
    | '\u2212' :: rest =>
      (offsetMinutes rest).map fun (minutes, rest) => (-(minutes : Int), rest)
    | _ => .error .invalid

def timeMark (text : List Char) : Except Fault (List Char) :=
  match text with
  | [] => .error .tooShort
  | 'T' :: rest => .ok rest
  | 't' :: rest => .ok rest
  | ' ' :: rest => .ok rest
  | _ => .error .invalid

def ofText (text : List Char) : Except Fault Timestamp := do
  let (year, rest) ← year text
  let (month, rest) ← field 1 12 (← mark '-' rest)
  let (day, rest) ← field 1 31 (← mark '-' rest)
  let (hour, rest) ← field 0 23 (← timeMark rest)
  let (minute, rest) ← field 0 59 (← mark ':' rest)
  let (second, rest) ← field 0 60 (← mark ':' rest)
  let (nano, rest) ← fraction rest
  let (ahead, rest) ← offset (Text.trimStart rest)
  unless (Text.trimStart rest).isEmpty do throw .tooLong
  match Date.ofFields? year month day with
  | none => throw .outOfRange
  | some date =>
    if 1440 ≤ ahead.natAbs then throw .outOfRange
    let leap := if second = 60 then nanosPerSecond else 0
    match ofLocal? date hour minute (min second 59) (nano + leap) ahead with
    | some t => return t
    | none => throw .impossible

end BlockForge.Timestamp
