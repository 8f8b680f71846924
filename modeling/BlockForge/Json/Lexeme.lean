/-
# Strings, numbers and words of a JSON text

The scalars of a JSON text, read from a cursor that counts bytes. Each kind of scalar can
be read or merely passed over. Passing over checks the grammar and nothing else: it accepts
strings whose surrogates do not pair and numbers past the largest double, which a reader
refuses.

A string is first cut into pieces, characters and escapes, up to the quote that ends it or
the place where it breaks off. Passing over looks at that end only; reading goes through
the pieces and pairs the surrogates.
-/

import BlockForge.Decimal.Numeral
import BlockForge.Json.Fault

namespace BlockForge.Json

/-- What is left of a text and how many bytes precede it. -/
structure Cursor where
  rest : List Char
  /-- The bytes before it. -/
  offset : Nat

namespace Cursor

def isSpace (c : Char) : Bool :=
  c == ' ' || c == '\n' || c == '\t' || c == '\r'

def skipSpace (c : Cursor) : Cursor :=
  ⟨c.rest.dropWhile isSpace, c.offset + (c.rest.takeWhile isSpace).length⟩

/-- The bytes up to and including the next one, if there is one. A fault that is noticed by
looking at a byte is placed after it. -/
def seen (c : Cursor) : Nat :=
  if c.rest.isEmpty then c.offset else c.offset + 1

def start (text : List Char) : Cursor := ⟨text, 0⟩

/-- A malformation noticed by looking at the next byte. -/
def faultSeen (c : Cursor) (cause : Malformation) : Fault := .malformed cause c.seen

/-- A malformation noticed before the next byte. -/
def faultHere (c : Cursor) (cause : Malformation) : Fault := .malformed cause c.offset

end Cursor

/-- A part of a string: a character, an escape for one character, or the code unit of a
hexadecimal escape, each with the number of bytes up to its end. -/
inductive Piece where
  | plain (c : Char) (stop : Nat)
  | escaped (c : Char) (stop : Nat)
  | unit (code : Nat) (stop : Nat)

/-- Where a string ends or breaks off. -/
inductive StringEnd where
  | closed (after : Cursor)
  | ended (offset : Nat)
  | control (offset : Nat)
  | badLetter (offset : Nat)
  /-- After four bytes that are not hexadecimal digits. -/
  | badDigits (offset : Nat)

def hexDigit? (c : Char) : Option Nat :=
  if '0' ≤ c && c ≤ '9' then some (c.toNat - '0'.toNat)
  else if 'a' ≤ c && c ≤ 'f' then some (c.toNat - 'a'.toNat + 10)
  else if 'A' ≤ c && c ≤ 'F' then some (c.toNat - 'A'.toNat + 10)
  else none

def hexUnit? (a b c d : Char) : Option Nat := do
  let a ← hexDigit? a
  let b ← hexDigit? b
  let c ← hexDigit? c
  let d ← hexDigit? d
  return ((a * 16 + b) * 16 + c) * 16 + d

/-- The character of a backslash escape. -/
def simpleEscape? (c : Char) : Option Char :=
  match c with
  | '"' => some '"'
  | '\\' => some '\\'
  | '/' => some '/'
  | 'b' => some '\x08'
  | 'f' => some '\x0c'
  | 'n' => some '\n'
  | 'r' => some '\r'
  | 't' => some '\t'
  | _ => none

/-- How a hexadecimal escape breaks off whose digits start here: at the end of the text if
fewer than four bytes are left, otherwise after four. -/
def brokenUnit (digits : List Char) (offset : Nat) : StringEnd :=
  let left := digits.foldl (fun n c => n + c.utf8Size) 0
  if left < 4 then .ended (offset + left) else .badDigits (offset + 4)

/-- The pieces of a string from after its opening quote on, and how it ends. -/
def pieces : List Char → Nat → List Piece × StringEnd
  | [], offset => ([], .ended offset)
  | '"' :: rest, offset => ([], .closed ⟨rest, offset + 1⟩)
  | ['\\'], offset => ([], .ended (offset + 1))
  | ['\\', 'u'], offset => ([], brokenUnit [] (offset + 2))
  | ['\\', 'u', a], offset => ([], brokenUnit [a] (offset + 2))
  | ['\\', 'u', a, b], offset => ([], brokenUnit [a, b] (offset + 2))
  | ['\\', 'u', a, b, c], offset => ([], brokenUnit [a, b, c] (offset + 2))
  | '\\' :: 'u' :: a :: b :: c :: d :: rest, offset =>
    match hexUnit? a b c d with
    | some code =>
      let (more, final) := pieces rest (offset + 6)
      (.unit code (offset + 6) :: more, final)
    | none => ([], brokenUnit [a, b, c, d] (offset + 2))
  | '\\' :: letter :: rest, offset =>
    match simpleEscape? letter with
    | some c =>
      let (more, final) := pieces rest (offset + 2)
      (.escaped c (offset + 2) :: more, final)
    | none => ([], .badLetter (offset + 2))
  | c :: rest, offset =>
    if c.toNat < 0x20 then ([], .control offset)
    else
      let (more, final) := pieces rest (offset + c.utf8Size)
      (.plain c (offset + c.utf8Size) :: more, final)

/-- The malformation of a string that breaks off, for a reader: a control character is
taken in first. -/
def StringEnd.read : StringEnd → Except Fault Cursor
  | .closed after => .ok after
  | .ended offset => .error (.malformed .endInString offset)
  | .control offset => .error (.malformed .controlCharacter (offset + 1))
  | .badLetter offset => .error (.malformed .invalidEscape offset)
  | .badDigits offset => .error (.malformed .invalidEscape offset)

def StringEnd.skip : StringEnd → Except Fault Cursor
  | .control offset => .error (.malformed .controlCharacter offset)
  | other => other.read

/-- Whether a code unit is the first of a surrogate pair. -/
def isLeading (code : Nat) : Bool := 0xD800 ≤ code && code ≤ 0xDBFF

def isTrailing (code : Nat) : Bool := 0xDC00 ≤ code && code ≤ 0xDFFF

/-- The character of a surrogate pair. -/
def pairedChar (leading trailing : Nat) : Char :=
  Char.ofNat ((leading - 0xD800) * 0x400 + (trailing - 0xDC00) + 0x10000)

/-- How a string goes wrong where no piece follows a leading surrogate that ends at an
offset. A string that ends there, or breaks off inside the digits of a second escape, fails
as it would anyway. -/
def unpairedAtEnd (stop : Nat) : StringEnd → Fault
  | .closed _ => .malformed .unpairedEscape (stop + 1)
  | .control _ => .malformed .unpairedEscape (stop + 1)
  | .badLetter _ => .malformed .unpairedEscape (stop + 2)
  | .ended offset => .malformed .endInString offset
  | .badDigits offset => .malformed .invalidEscape offset

/-- The characters that pieces stand for, and what follows the string. -/
def joinPieces (final : StringEnd) : List Piece → Except Fault (List Char × Cursor)
  | [] => final.read.map ([], ·)
  | .plain c _ :: rest => (joinPieces final rest).map fun (cs, after) => (c :: cs, after)
  | .escaped c _ :: rest => (joinPieces final rest).map fun (cs, after) => (c :: cs, after)
  | .unit code stop :: rest =>
    if isTrailing code then .error (.malformed .loneSurrogate stop)
    else if isLeading code then
      match rest with
      | .unit second stop :: rest =>
        if isTrailing second then
          (joinPieces final rest).map fun (cs, after) => (pairedChar code second :: cs, after)
        else .error (.malformed .loneSurrogate stop)
      | .escaped _ _ :: _ => .error (.malformed .unpairedEscape (stop + 2))
      | .plain _ _ :: _ => .error (.malformed .unpairedEscape (stop + 1))
      | [] => .error (unpairedAtEnd stop final)
    else (joinPieces final rest).map fun (cs, after) => (Char.ofNat code :: cs, after)

def readString (c : Cursor) : Except Fault (String × Cursor) :=
  let (parts, final) := pieces c.rest c.offset
  (joinPieces final parts).map fun (cs, after) => (String.ofList cs, after)

def skipString (c : Cursor) : Except Fault Cursor :=
  (pieces c.rest c.offset).2.skip

/-- Reads the remaining letters of a word. -/
def readWord : List Char → Cursor → Except Fault Cursor
  | [], c => .ok c
  | letter :: letters, c =>
    match c.rest with
    | [] => .error (c.faultHere .endInValue)
    | next :: rest =>
      if next = letter then readWord letters ⟨rest, c.offset + 1⟩
      else .error (.malformed .expectedWord (c.offset + 1))

/-- The largest power of ten that is counted. -/
def greatestPower : Nat := 2147483647

/-- Appends digits to a number as long as it fits; what does not fit is left. -/
def takeDigits (limit : Nat) : Nat → List Char → Nat × List Char
  | n, [] => (n, [])
  | n, c :: rest =>
    let longer := 10 * n + (c.toNat - '0'.toNat)
    if limit < longer then (n, c :: rest) else takeDigits limit longer rest

def Cursor.skipDigits (c : Cursor) : Cursor :=
  ⟨c.rest.dropWhile Char.isDigit, c.offset + (c.rest.takeWhile Char.isDigit).length⟩

/-- The double of digits and a power of ten. One past the largest is a fault. -/
def scaledNumber (negative : Bool) (significand : Nat) (power : Int) (after : Cursor) :
    Except Fault (Number × Cursor) :=
  (Magnitude.ofScaled? significand power).elim (.error (after.faultHere .numberOutOfRange))
    fun x => .ok (.float (.finite negative x), after)

/-- Reads a power of ten from after its letter on. A power that cannot be counted is a
fault where it would make the number larger and makes it zero otherwise. -/
def readPower (negative : Bool) (significand : Nat) (shift : Int) (c : Cursor) :
    Except Fault (Number × Cursor) :=
  let (down, c) : Bool × Cursor :=
    match c.rest with
    | '+' :: rest => (false, ⟨rest, c.offset + 1⟩)
    | '-' :: rest => (true, ⟨rest, c.offset + 1⟩)
    | _ => (false, c)
  match c.rest with
  | [] => .error (c.faultHere .endInValue)
  | first :: _ =>
    if !first.isDigit then .error (.malformed .invalidNumber (c.offset + 1))
    else
      let digits := c.rest.takeWhile Char.isDigit
      let (power, left) := takeDigits greatestPower 0 digits
      if left.isEmpty then
        scaledNumber negative significand (if down then shift - power else shift + power)
          c.skipDigits
      else if significand = 0 || down then
        .ok (.float (.finite negative .zero), c.skipDigits)
      else
        .error (.malformed .numberOutOfRange (c.offset + (digits.length - left.length) + 1))

/-- Reads what may follow the digits of a number: a power of ten. -/
def readAfterDigits (negative : Bool) (significand : Nat) (shift : Int) (c : Cursor) :
    Except Fault (Number × Cursor) :=
  match c.rest with
  | 'e' :: rest => readPower negative significand shift ⟨rest, c.offset + 1⟩
  | 'E' :: rest => readPower negative significand shift ⟨rest, c.offset + 1⟩
  | _ => scaledNumber negative significand shift c

/-- Reads a fraction from after its point on. Digits that no longer fit are dropped. -/
def readFraction (negative : Bool) (significand : Nat) (shift : Int) (c : Cursor) :
    Except Fault (Number × Cursor) :=
  let digits := c.rest.takeWhile Char.isDigit
  if digits.isEmpty then
    .error (c.faultSeen (if c.rest.isEmpty then .endInValue else .invalidNumber))
  else
    let (significand, left) := takeDigits greatestUnsigned64 significand digits
    readAfterDigits negative significand (shift - (digits.length - left.length : Nat))
      c.skipDigits

/-- A whole number. A negative zero, and a negative number of more than 64 bits, is a
double. -/
def wholeNumber (negative : Bool) (n : Nat) : Number :=
  if !negative then .unsigned n
  else if 0 < n ∧ fitsSigned64 (-(n : Int)) then .signed (-(n : Int))
  else .float (.ofMagnitude true (Magnitude.ofNat? n))

/-- Reads a number from after its sign on. Digits that no longer fit into 64 bits raise
the power of ten. -/
def readUnsigned (negative : Bool) (c : Cursor) : Except Fault (Number × Cursor) :=
  match c.rest with
  | [] => .error (c.faultHere .endInValue)
  | first :: rest =>
    if !first.isDigit then .error (.malformed .invalidNumber (c.offset + 1))
    else if first = '0' && rest.head?.any Char.isDigit then
      .error (.malformed .invalidNumber (c.offset + 2))
    else
      let (significand, left) := takeDigits greatestUnsigned64 0 (c.rest.takeWhile Char.isDigit)
      let after := c.skipDigits
      match after.rest with
      | '.' :: rest =>
        readFraction negative significand left.length ⟨rest, after.offset + 1⟩
      | 'e' :: _ => readAfterDigits negative significand left.length after
      | 'E' :: _ => readAfterDigits negative significand left.length after
      | _ =>
        if left.isEmpty then .ok (wholeNumber negative significand, after)
        else scaledNumber negative significand left.length after

def readNumber (c : Cursor) : Except Fault (Number × Cursor) :=
  match c.rest with
  | '-' :: rest => readUnsigned true ⟨rest, c.offset + 1⟩
  | _ => readUnsigned false c

/-- Passes over a power of ten from after its letter on. -/
def skipPower (c : Cursor) : Except Fault Cursor :=
  let c : Cursor :=
    match c.rest with
    | '+' :: rest => ⟨rest, c.offset + 1⟩
    | '-' :: rest => ⟨rest, c.offset + 1⟩
    | _ => c
  if c.rest.head?.any Char.isDigit then .ok c.skipDigits
  else .error (c.faultSeen .invalidNumber)

def skipAfterDigits (c : Cursor) : Except Fault Cursor :=
  match c.rest with
  | 'e' :: rest => skipPower ⟨rest, c.offset + 1⟩
  | 'E' :: rest => skipPower ⟨rest, c.offset + 1⟩
  | _ => .ok c

def skipUnsigned (c : Cursor) : Except Fault Cursor :=
  match c.rest with
  | [] => .error (c.faultHere .invalidNumber)
  | first :: rest =>
    if !first.isDigit then .error (.malformed .invalidNumber (c.offset + 1))
    else if first = '0' && rest.head?.any Char.isDigit then
      .error (.malformed .invalidNumber (c.offset + 2))
    else
      let after := c.skipDigits
      match after.rest with
      | '.' :: rest =>
        let fraction : Cursor := ⟨rest, after.offset + 1⟩
        if rest.head?.any Char.isDigit then skipAfterDigits fraction.skipDigits
        else .error (fraction.faultSeen .invalidNumber)
      | _ => skipAfterDigits after

def skipNumber (c : Cursor) : Except Fault Cursor :=
  match c.rest with
  | '-' :: rest => skipUnsigned ⟨rest, c.offset + 1⟩
  | _ => skipUnsigned c

end BlockForge.Json
