/-
# Values of a generated array

The definition of a block is one nested PHP array. It is built as a tree and becomes text
only here, so quoting and indentation are decided in one place and every string is escaped
exactly once. Entries keep their order, and two entries of one key are both written.

Inside single quotes PHP knows two escapes, for the backslash and for the quote itself, and
takes every other character as it stands. A text is therefore escaped character by
character, and its literal is the escaped text between two quotes.

Numbers are spelled the way the block editor spells them: whole numbers without a
fraction, plain notation between a millionth and a sextillion, and outside of these bounds
a power of ten with an explicit sign. The bounds are doubles and are compared with the
number itself, not with its digits. Both zeros are `0`.

An array is written over several lines, one entry a line, and its body is moved four
columns to the right; an inline array and a list of strings stay on one line.
-/

import BlockForge.Decimal.Notation
import BlockForge.Decimal.Numeral
import BlockForge.Text.Words

namespace BlockForge.Code

open BlockForge.Text

/-! ## Quoted texts -/

def escapeChar (c : Char) : List Char :=
  if c = '\\' || c = '\'' then ['\\', c] else [c]

/-- A text as it stands inside a single-quoted literal. -/
def escape (text : List Char) : List Char :=
  text.flatMap escapeChar

def quote (text : List Char) : List Char :=
  '\'' :: escape text ++ ['\'']

/-! ## Numbers -/

/-- Whether a magnitude is written without a power of ten: it is at least the double
nearest to a millionth and less than a sextillion. -/
def isPlainMagnitude (x : Magnitude) : Bool :=
  (Magnitude.ofRatio? 1 1000000).any (·.atMost x)
    && x.units < 1000000000000000000000 * Magnitude.unitsPerOne

/-- A magnitude that is not zero. -/
def magnitudeChars (x : Magnitude) : List Char :=
  let digits := x.shortest .away
  if isPlainMagnitude x then digits.plain false else digits.scientific true

def number : Binary64 → List Char
  | .nan => ['N', 'a', 'N']
  | .infinite negative => signChars negative ++ ['I', 'n', 'f', 'i', 'n', 'i', 't', 'y']
  | .finite negative x =>
    if x.isZero then ['0'] else signChars negative ++ magnitudeChars x

/-! ## Trees of values -/

/-- A value of a generated array. An entry is a value with or without a key. -/
inductive Literal where
  | string (text : String)
  /-- A string that the back office shows in the language of its user. -/
  | localized (text : String)
  | bool (value : Bool)
  | int (value : Int)
  | number (value : Binary64)
  /-- An expression, written as it stands. -/
  | expression (source : String)
  | list (items : List String)
  | array (entries : List (Option String × Literal))
  | inline (entries : List (Option String × Literal))
  deriving Inhabited

/-- An ordered array: keyed entries, items without a key, or both. -/
abbrev Entries := List (Option String × Literal)

/-- How far the body of a nested array is moved to the right. -/
def nestedColumns : Nat := 4

def commaSeparated (pieces : List (List Char)) : List Char :=
  [',', ' '].intercalate pieces

def keyChars : Option String → List Char
  | some key => quote key.toList ++ [' ', '=', '>', ' ']
  | none => []

/-- The call that gives a string in the language of the user of the back office. -/
def localizedCall (text : String) : List Char :=
  "$this->module->l(".toList ++ quote text.toList ++ [')']

mutual

def Literal.render : Literal → List Char
  | .string text => quote text.toList
  | .localized text => localizedCall text
  | .bool value => if value then "true".toList else "false".toList
  | .int value => intChars value
  | .number value => Code.number value
  | .expression source => source.toList
  | .list items => '[' :: commaSeparated (items.map fun item => quote item.toList) ++ [']']
  | .array entries =>
    match entries with
    | [] => ['[', ']']
    | entry :: rest =>
      '[' :: '\n'
        :: indent nestedColumns (joinLines (renderLines (entry :: rest)))
        ++ ['\n', ']']
  | .inline entries => '[' :: commaSeparated (renderInline entries) ++ [']']

/-- The entries of an array, each ended by a comma. -/
def renderLines : List (Option String × Literal) → List (List Char)
  | [] => []
  | (key, value) :: rest => (keyChars key ++ value.render ++ [',']) :: renderLines rest

def renderInline : List (Option String × Literal) → List (List Char)
  | [] => []
  | (key, value) :: rest => (keyChars key ++ value.render) :: renderInline rest

end

namespace Entries

/-- The body of an array: its entries one a line, not yet moved to the right. -/
def render (entries : Entries) : List Char :=
  joinLines (renderLines entries)

/-- The keys in order; items without a key have none. -/
def keys (entries : Entries) : List String :=
  entries.filterMap (·.1)

/-- The value of the first entry with a key. -/
def get? (entries : Entries) (key : String) : Option Literal :=
  (entries.find? (·.1 == some key)).map (·.2)

end Entries

def entry (key : String) (value : Literal) : Option String × Literal :=
  (some key, value)

end BlockForge.Code
