/-
# Why a text or a value was not accepted

Two kinds of causes end the reading of a description. A malformed text breaks off at some
byte. A well-formed value may have another shape than the one asked for: the wrong kind of
value, a missing or a repeated key, a name that is not one of those known. Both kinds are
causes here, and each has one wording. A fault of a stored value has no place and is told
without one; both spell doubles as JSON does.

A place in a text is a number of bytes of its UTF-8 form. Messages give it as a line,
counted from 1, and a column, the number of bytes of that line that were taken in; a span
points at the last of these bytes. Offsets inside a character are places too.
-/

import BlockForge.Json.Printer
import BlockForge.Text.Shown
import BlockForge.Text.Words

namespace BlockForge.Json

/-! ## Causes -/

/-- How a text fails to be JSON. -/
inductive Malformation where
  | endInList
  | endInObject
  | endInString
  | endInValue
  | expectedColon
  | expectedListCommaOrEnd
  | expectedObjectCommaOrEnd
  | expectedWord
  | expectedValue
  | invalidEscape
  | invalidNumber
  | numberOutOfRange
  | controlCharacter
  | keyNotString
  /-- A surrogate code unit where its partner does not follow or precede it. -/
  | loneSurrogate
  /-- No second escape follows a leading surrogate. -/
  | unpairedEscape
  | trailingComma
  | trailingCharacters
  | tooDeep
  deriving DecidableEq

def Malformation.message : Malformation → String
  | .endInList => "EOF while parsing a list"
  | .endInObject => "EOF while parsing an object"
  | .endInString => "EOF while parsing a string"
  | .endInValue => "EOF while parsing a value"
  | .expectedColon => "expected `:`"
  | .expectedListCommaOrEnd => "expected `,` or `]`"
  | .expectedObjectCommaOrEnd => "expected `,` or `\x7d`"
  | .expectedWord => "expected ident"
  | .expectedValue => "expected value"
  | .invalidEscape => "invalid escape"
  | .invalidNumber => "invalid number"
  | .numberOutOfRange => "number out of range"
  | .controlCharacter =>
    "control character (\\u0000-\\u001F) found while parsing a string"
  | .keyNotString => "key must be a string"
  | .loneSurrogate => "lone leading surrogate in hex escape"
  | .unpairedEscape => "unexpected end of hex escape"
  | .trailingComma => "trailing comma"
  | .trailingCharacters => "trailing characters"
  | .tooDeep => "recursion limit exceeded"

/-- What was found where something else was asked for. -/
inductive Found where
  | null
  | bool (b : Bool)
  | integer (i : Int)
  | float (x : Binary64)
  | string (s : String)
  | sequence
  | map
  deriving DecidableEq

def Number.found : Number → Found
  | .unsigned n => .integer n
  | .signed i => .integer i
  | .float x => .float x

def Value.found : Value → Found
  | .null => .null
  | .bool b => .bool b
  | .number n => n.found
  | .string s => .string s
  | .array _ => .sequence
  | .object _ => .map

/-- Why a well-formed value does not have the shape asked for. -/
inductive Refusal where
  | wrongType (found : Found) (expected : String)
  | wrongValue (found : Found) (expected : String)
  | wrongLength (length : Nat) (expected : String)
  | unknownVariant (name : String) (known : List String)
  | missingKey (key : String)
  | repeatedKey (key : String)
  | noAlternative (name : String)
  | notInteger (x : Binary64)
  /-- A number of a kind that is too large for every reader. -/
  | overflowed (kind : String)
  | notTime (reason : String)
  deriving DecidableEq

/-- Names between grave accents, as a list of alternatives. -/
def alternatives (names : List String) : String :=
  match names with
  | [] => "there are no variants"
  | [one] => "expected `" ++ one ++ "`"
  | [one, two] => "expected `" ++ one ++ "` or `" ++ two ++ "`"
  | many => "expected one of " ++ ", ".intercalate (many.map fun name => "`" ++ name ++ "`")

/-- What was found, in words; the spelling of doubles depends on the document format. -/
def Found.describe (spell : Binary64 → List Char) : Found → String
  | .null => "null"
  | .bool b => "boolean `" ++ (if b then "true" else "false") ++ "`"
  | .integer i => "integer `" ++ String.ofList (intChars i) ++ "`"
  | .float x => "floating point `" ++ String.ofList (spell x) ++ "`"
  | .string s => "string " ++ Text.shown s
  | .sequence => "sequence"
  | .map => "map"

def Refusal.message (spell : Binary64 → List Char) : Refusal → String
  | .wrongType found expected =>
    "invalid type: " ++ found.describe spell ++ ", expected " ++ expected
  | .wrongValue found expected =>
    "invalid value: " ++ found.describe spell ++ ", expected " ++ expected
  | .wrongLength length expected =>
    "invalid length " ++ String.ofList (natChars length) ++ ", expected " ++ expected
  | .unknownVariant name known => "unknown variant `" ++ name ++ "`, " ++ alternatives known
  | .missingKey key => "missing field `" ++ key ++ "`"
  | .repeatedKey key => "duplicate field `" ++ key ++ "`"
  | .noAlternative name => "data did not match any variant of untagged enum " ++ name
  | .notInteger x =>
    "expected an integer, found " ++ String.ofList (plainDecimal.write x)
  | .overflowed kind => kind ++ " number overflowed"
  | .notTime reason => reason

/-- What ended a reading. -/
inductive Cause where
  | malformed (cause : Malformation)
  | refused (cause : Refusal)
  deriving DecidableEq

def Cause.message (spell : Binary64 → List Char) : Cause → String
  | .malformed cause => cause.message
  | .refused cause => cause.message spell

/-- What ended a reading and after how many bytes. -/
structure Fault where
  cause : Cause
  /-- How many bytes of the text had been taken in. -/
  offset : Nat
  deriving DecidableEq

def Fault.malformed (cause : Malformation) (offset : Nat) : Fault := ⟨.malformed cause, offset⟩

def Fault.refused (cause : Refusal) (offset : Nat) : Fault := ⟨.refused cause, offset⟩

/-! ## Places -/

def byteLength (text : List Char) : Nat :=
  text.foldl (fun n c => n + c.utf8Size) 0

/-- The line and the column reached from a line and a column by taking in bytes. -/
def advance : List Char → Nat → Nat × Nat → Nat × Nat
  | [], _, place => place
  | c :: rest, bytes, (line, column) =>
    if bytes < c.utf8Size then (line, column + bytes)
    else if c = '\n' then advance rest (bytes - 1) (line + 1, 0)
    else advance rest (bytes - c.utf8Size) (line, column + c.utf8Size)

/-- The line and the column of a place. -/
def position (text : List Char) (offset : Nat) : Nat × Nat :=
  advance text offset (1, 0)

/-- The number of bytes of the first lines of a text, their newlines included. -/
def bytesOfLines : Nat → List Char → Nat
  | 0, _ => 0
  | _ + 1, [] => 0
  | count + 1, c :: rest =>
    c.utf8Size + bytesOfLines (if c = '\n' then count else count + 1) rest

/-- The place that a span points at: the last byte taken in on the line of a position, or
the start of that line if there is none. It never lies past the end of the text. -/
def spanStart (text : List Char) (line column : Nat) : Nat :=
  min (bytesOfLines (line - 1) text + (column - 1)) (byteLength text)

/-- The last words of a message: where it happened. -/
def placeChars (place : Nat × Nat) : List Char :=
  " at line ".toList ++ Nat.toDigits 10 place.1 ++ " column ".toList ++ Nat.toDigits 10 place.2

/-! ## Messages -/

def Cause.text (cause : Cause) : String := cause.message floatChars

/-- A fault of a text, in words and with its place. -/
def Fault.textIn (text : List Char) (fault : Fault) : String :=
  fault.cause.text ++ String.ofList (placeChars (position text fault.offset))

/-- The byte that a fault of a text points at. -/
def Fault.spanIn (text : List Char) (fault : Fault) : Nat :=
  let (line, column) := position text fault.offset
  spanStart text line column

end BlockForge.Json
