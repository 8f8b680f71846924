/-
# Writing JSON

Two layouts of one value: compact, without any space, and pretty, with one item or member a
line and two columns a level. An empty array or object is written without a line break in
both. In strings the quote, the backslash and the control characters are escaped and
everything else stands as it is. Doubles have the shortest digits that read back, and a
fraction or a power of ten, so that they never look like whole numbers.
-/

import BlockForge.Decimal.Notation
import BlockForge.Json.Value

namespace BlockForge.Json

/-- Doubles in JSON: plain from a hundred-thousandth up to ten quadrillion, always with a
fraction there, and with a signed power of ten outside. -/
def floatFormat : DecimalFormat where
  plainUpTo := some 16
  plainAbove := some (-5)
  wholeFraction := true
  tie := .even
  signedZero := true
  infinity := ['n', 'u', 'l', 'l']
  notANumber := ['n', 'u', 'l', 'l']

/-- A double in JSON. What is not finite has no number and is written as null. -/
def floatChars (x : Binary64) : List Char :=
  if x.isFinite then floatFormat.write x else ['n', 'u', 'l', 'l']

def Number.chars : Number → List Char
  | .unsigned n => natChars n
  | .signed i => intChars i
  | .float x => floatChars x

def escapeChar (c : Char) : List Char :=
  match c with
  | '"' => ['\\', '"']
  | '\\' => ['\\', '\\']
  | '\n' => ['\\', 'n']
  | '\r' => ['\\', 'r']
  | '\t' => ['\\', 't']
  | '\x08' => ['\\', 'b']
  | '\x0c' => ['\\', 'f']
  | c =>
    if c.toNat < 0x20 then
      ['\\', 'u', '0', '0', Nat.digitChar (c.toNat / 16), Nat.digitChar (c.toNat % 16)]
    else [c]

def stringChars (s : String) : List Char :=
  '"' :: s.toList.flatMap escapeChar ++ ['"']

def boolChars (b : Bool) : List Char :=
  if b then ['t', 'r', 'u', 'e'] else ['f', 'a', 'l', 's', 'e']

/-- Pieces with a comma between each two. -/
def commaJoined (pieces : List (List Char)) : List Char :=
  [','].intercalate pieces

mutual

/-- A value without any space. -/
def Value.compact : Value → List Char
  | .null => ['n', 'u', 'l', 'l']
  | .bool b => boolChars b
  | .number n => n.chars
  | .string s => stringChars s
  | .array items => '[' :: commaJoined (compactItems items) ++ [']']
  | .object members => '\x7b' :: commaJoined (compactMembers members) ++ ['\x7d']

def compactItems : List Value → List (List Char)
  | [] => []
  | item :: rest => item.compact :: compactItems rest

def compactMembers : List (String × Value) → List (List Char)
  | [] => []
  | (key, value) :: rest => (stringChars key ++ ':' :: value.compact) :: compactMembers rest

end

/-- A line break and the columns of a level. -/
def breakLine (level : Nat) : List Char :=
  '\n' :: List.replicate (2 * level) ' '

/-- Pieces between two brackets, one a line, a level further in; nothing but the brackets
where there is no piece. -/
def bracketed (opening closing : Char) (level : Nat) (pieces : List (List Char)) : List Char :=
  if pieces.isEmpty then [opening, closing]
  else
    opening :: commaJoined (pieces.map (breakLine (level + 1) ++ ·))
      ++ breakLine level ++ [closing]

mutual

/-- A value with one item or member a line, its closing bracket at a level. -/
def Value.prettyAt (level : Nat) : Value → List Char
  | .array items => bracketed '[' ']' level (prettyItems (level + 1) items)
  | .object members => bracketed '\x7b' '\x7d' level (prettyMembers (level + 1) members)
  | .null => ['n', 'u', 'l', 'l']
  | .bool b => boolChars b
  | .number n => n.chars
  | .string s => stringChars s

def prettyItems (level : Nat) : List Value → List (List Char)
  | [] => []
  | item :: rest => item.prettyAt level :: prettyItems level rest

def prettyMembers (level : Nat) : List (String × Value) → List (List Char)
  | [] => []
  | (key, value) :: rest =>
    (stringChars key ++ ':' :: ' ' :: value.prettyAt level) :: prettyMembers level rest

end

def Value.compactText (v : Value) : String := String.ofList v.compact

def Value.prettyText (v : Value) : String := String.ofList (v.prettyAt 0)

end BlockForge.Json
