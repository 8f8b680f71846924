/-
# Writing TOML

A table is written as expressions: first its plain values, in their order, and then the
tables it holds, each below a header with the whole path. A list of nothing but tables is
written as tables of one header, every other list in one piece, where tables inside it are
written in one piece too.

A string is written in the first of four styles that shows it without an escape, and with
escapes where none does.
-/

import BlockForge.Decimal.Notation
import BlockForge.Toml.Document

namespace BlockForge.Toml

/-- The four ways to quote a string. -/
inductive Quoting where
  | basic
  | literal
  | basicLines
  | literalLines
  deriving DecidableEq

namespace Quoting

def quotes : Quoting → List Char
  | basic => ['"']
  | literal => ['\'']
  | basicLines => ['"', '"', '"']
  | literalLines => ['\'', '\'', '\'']

def isOverLines : Quoting → Bool
  | basicLines => true
  | literalLines => true
  | _ => false

/-- How many quotes may stand in a row inside a basic string. -/
def quotesInRow : Quoting → Nat
  | basicLines => 2
  | _ => 0

end Quoting

/-- Whether a character is a control character other than the tab and the line break. -/
def isControl (c : Char) : Bool :=
  (c.toNat < 0x20 && c != '\t' && c != '\n') || c.toNat == 0x7F

/-- The length of the longest row of one character in a text, given the length of the row
that ends where the text starts. -/
def longestRow (mark : Char) : Nat → List Char → Nat
  | here, [] => here
  | here, c :: rest =>
    if c = mark then longestRow mark (here + 1) rest else max here (longestRow mark 0 rest)

/-- Whether a text can be written in a style without an escape. -/
def showsPlainly (text : List Char) : Quoting → Bool
  | .basic =>
    !text.any isControl && !text.contains '\\' && !text.contains '"' && !text.contains '\n'
  | .literal => !text.any isControl && !text.contains '\'' && !text.contains '\n'
  | .basicLines =>
    !text.any isControl && !text.contains '\\' && longestRow '"' 0 text ≤ 2
  | .literalLines => !text.any isControl && longestRow '\'' 0 text ≤ 2

/-- The style of a string. -/
def quotingOf (text : List Char) : Quoting :=
  match [Quoting.basic, .literal, .basicLines, .literalLines].find? (showsPlainly text) with
  | some quoting => quoting
  | none => if text.contains '\n' then .basicLines else .basic

def upperHex (n : Nat) : Char := (Nat.digitChar (n % 16)).toUpper

/-- A control character by its number. -/
def numberEscape (c : Char) : List Char :=
  ['\\', 'u', upperHex (c.toNat / 4096), upperHex (c.toNat / 256), upperHex (c.toNat / 16),
    upperHex c.toNat]

/-- A character of a basic string that is not a quote. -/
def basicChar (quoting : Quoting) (c : Char) : List Char :=
  match c with
  | '\x08' => ['\\', 'b']
  | '\t' => ['\\', 't']
  | '\x0c' => ['\\', 'f']
  | '\r' => ['\\', 'r']
  | '\\' => ['\\', '\\']
  | '\n' => if quoting.isOverLines then ['\n'] else ['\\', 'n']
  | c => if isControl c then numberEscape c else [c]

/-- The characters of a basic string. Quotes are counted from the last escape or other
character on, and the one that would be too many in a row is escaped. -/
def basicChars (quoting : Quoting) : Nat → List Char → List Char
  | _, [] => []
  | row, '"' :: rest =>
    if row < quoting.quotesInRow then '"' :: basicChars quoting (row + 1) rest
    else '\\' :: '"' :: basicChars quoting 0 rest
  | _, c :: rest => basicChar quoting c ++ basicChars quoting 0 rest

/-- A string between its quotes. Over several lines it begins with a line break if it holds
one. -/
def stringChars (text : List Char) : List Char :=
  let quoting := quotingOf text
  let opening := if quoting.isOverLines && text.contains '\n' then ['\n'] else []
  let body :=
    match quoting with
    | .basic => basicChars .basic 0 text
    | .basicLines => basicChars .basicLines 0 text
    | .literal => text
    | .literalLines => text
  quoting.quotes ++ opening ++ body ++ quoting.quotes

/-- Doubles in TOML: never with a power of ten and always with a fraction. -/
def floatFormat : DecimalFormat where
  plainUpTo := none
  plainAbove := none
  wholeFraction := true
  tie := .away
  signedZero := true
  infinity := ['i', 'n', 'f']
  notANumber := ['n', 'a', 'n']

/-- A key: bare if it can be. -/
def keyChars (key : String) : List Char :=
  if !key.isEmpty && key.toList.all isBareChar then key.toList
  else '"' :: basicChars .basic 0 key.toList ++ ['"']

def pathChars (path : List String) : List Char :=
  ['.'].intercalate (path.map keyChars)

/-- The columns of an item of a list that goes over several lines. -/
def itemColumns : List Char := [' ', ' ', ' ', ' ']

/-- Items of a list: a single one on the line of the brackets, several on a line each. -/
def listChars : List (List Char) → List Char
  | [] => ['[', ']']
  | [item] => '[' :: item ++ [']']
  | items => '[' :: '\n' :: items.flatMap (fun item => itemColumns ++ item ++ [',', '\n']) ++ [']']

def inlineTableChars : List (List Char) → List Char
  | [] => ['\x7b', '\x7d']
  | entries => ['\x7b', ' '] ++ [',', ' '].intercalate entries ++ [' ', '\x7d']

mutual

def Value.chars : Value → List Char
  | .string text => stringChars text.toList
  | .integer i => intChars i
  | .float x => floatFormat.write x
  | .outsized text => text.toList
  | .bool b => if b then ['t', 'r', 'u', 'e'] else ['f', 'a', 'l', 's', 'e']
  | .moment text => text.toList
  | .array items => listChars (itemChars items)
  | .table entries => inlineTableChars (entryChars entries)

def itemChars : List Value → List (List Char)
  | [] => []
  | item :: rest => item.chars :: itemChars rest

def entryChars : List (String × Value) → List (List Char)
  | [] => []
  | (key, value) :: rest =>
    (keyChars key ++ [' ', '=', ' '] ++ value.chars) :: entryChars rest

end

def Value.isTable : Value → Bool
  | .table _ => true
  | _ => false

/-- Whether a value is written in one piece after its key. -/
def Value.isInline : Value → Bool
  | .table _ => false
  | .array [] => true
  | .array items => !items.all Value.isTable
  | _ => true

/-- The expressions of the values of a table that are written in one piece. -/
def assignments (entries : Entries) : List Expression :=
  (entries.filter (·.2.isInline)).map fun (key, value) => .assign ⟨[], key⟩ value

mutual

/-- The expressions of the tables that the value of a key holds. -/
def Value.sections (way : List String) (key : String) : Value → List Expression
  | .table entries =>
    .header ⟨way, key⟩ :: assignments entries ++ sectionsOf (way ++ [key]) entries
  | .array items =>
    if (Value.array items).isInline then [] else nextSections way key items
  | _ => []

/-- The expressions of the tables of one header. -/
def nextSections (way : List String) (key : String) : List Value → List Expression
  | [] => []
  | .table entries :: rest =>
    .nextHeader ⟨way, key⟩ :: assignments entries ++ sectionsOf (way ++ [key]) entries
      ++ nextSections way key rest
  | _ :: rest => nextSections way key rest

/-- The expressions of the tables inside a table, below its path. -/
def sectionsOf (way : List String) : List (String × Value) → List Expression
  | [] => []
  | (key, value) :: rest => value.sections way key ++ sectionsOf way rest

end

def expressionsOf (entries : Entries) : List Expression :=
  assignments entries ++ sectionsOf [] entries

/-- An expression with its line end. A header has an empty line before it. -/
def Expression.chars : Expression → List Char
  | .header path => '\n' :: '[' :: pathChars path.names ++ [']', '\n']
  | .nextHeader path => '\n' :: '[' :: '[' :: pathChars path.names ++ [']', ']', '\n']
  | .assign path v => pathChars path.names ++ [' ', '=', ' '] ++ v.chars ++ ['\n']

def documentChars (entries : Entries) : List Char :=
  (expressionsOf entries).flatMap Expression.chars

end BlockForge.Toml
