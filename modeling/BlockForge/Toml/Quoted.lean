/-
# Quoted strings

Four kinds of strings are quoted: basic strings with escapes and literal strings without,
each on one line or over several. Every reader here starts after the opening quotes and
gives the string and what follows the closing ones.

A string over several lines does not begin with a line break that follows its opening
quotes at once, and it may end in one or two quotes before the closing three. Inside a
basic one a backslash at the end of a line takes the blanks that follow out of the string.
-/

import BlockForge.Json.Lexeme

namespace BlockForge.Toml

open BlockForge.Json (hexDigit? hexUnit?)

/-- Whether a character may stand in a quoted string or a comment: everything but control
characters, of which the tab is allowed. -/
def isPlainChar (c : Char) : Bool :=
  c == '\t' || (0x20 ≤ c.toNat && c.toNat != 0x7F)

/-- The character of a code point, if it is one. -/
def charOf? (code : Nat) : Option Char :=
  if h : code.isValidChar then some (Char.ofNatAux code h) else none

def letterEscape? (c : Char) : Option Char :=
  match c with
  | 'b' => some '\x08'
  | 't' => some '\t'
  | 'n' => some '\n'
  | 'f' => some '\x0c'
  | 'r' => some '\r'
  | 'e' => some '\x1b'
  | '"' => some '"'
  | '\\' => some '\\'
  | _ => none

def withChar (c : Option Char) (read : Option (List Char × List Char)) :
    Option (List Char × List Char) :=
  match c, read with
  | some c, some (text, rest) => some (c :: text, rest)
  | _, _ => none

/-- The character of two hexadecimal digits. -/
def byteChar? (a b : Char) : Option Char :=
  match hexDigit? a, hexDigit? b with
  | some a, some b => charOf? (16 * a + b)
  | _, _ => none

def shortChar? (a b c d : Char) : Option Char :=
  (hexUnit? a b c d).bind charOf?

def longChar? (high low : Option Nat) : Option Char :=
  match high, low with
  | some high, some low => charOf? (0x10000 * high + low)
  | _, _ => none

def basic? : List Char → Option (List Char × List Char)
  | '"' :: rest => some ([], rest)
  | '\\' :: 'U' :: a :: b :: c :: d :: e :: f :: g :: h :: rest =>
    withChar (longChar? (hexUnit? a b c d) (hexUnit? e f g h)) (basic? rest)
  | '\\' :: 'u' :: a :: b :: c :: d :: rest => withChar (shortChar? a b c d) (basic? rest)
  | '\\' :: 'x' :: a :: b :: rest => withChar (byteChar? a b) (basic? rest)
  | '\\' :: letter :: rest => withChar (letterEscape? letter) (basic? rest)
  | c :: rest =>
    if c != '\\' && isPlainChar c then withChar (some c) (basic? rest) else none
  | [] => none

def literal? : List Char → Option (List Char × List Char)
  | '\'' :: rest => some ([], rest)
  | c :: rest => if isPlainChar c then withChar (some c) (literal? rest) else none
  | [] => none

/-- Past the closing quotes of a string over several lines, up to two quotes before them
belonging to the string. -/
def closing (quote : Char) (rest : List Char) : List Char × List Char :=
  match rest with
  | a :: b :: after =>
    if a = quote then if b = quote then ([a, b], after) else ([a], b :: after)
    else ([], rest)
  | [a] => if a = quote then ([a], []) else ([], rest)
  | [] => ([], [])

def pastBreak (text : List Char) : List Char :=
  match text with
  | '\n' :: rest => rest
  | '\r' :: '\n' :: rest => rest
  | rest => rest

/-- A literal string over several lines, from after the line break on that it may begin
with. -/
def literalLines? : List Char → Option (List Char × List Char)
  | '\'' :: '\'' :: '\'' :: rest => some (closing '\'' rest)
  | '\r' :: '\n' :: rest => withChar (some '\r') (withChar (some '\n') (literalLines? rest))
  | c :: rest =>
    if c = '\n' || isPlainChar c then withChar (some c) (literalLines? rest) else none
  | [] => none

/-- What a backslash at the end of a line has taken in. -/
inductive Fold where
  | off
  /-- The backslash and blanks, but not yet the end of the line. -/
  | opened
  | taking
  deriving DecidableEq

def isBlankChar (c : Char) : Bool := c == ' ' || c == '\t'

/-- A basic string over several lines, from after the line break on that it may begin
with. -/
def basicLines? : Fold → List Char → Option (List Char × List Char)
  | .opened, ' ' :: rest => basicLines? .opened rest
  | .opened, '\t' :: rest => basicLines? .opened rest
  | .opened, '\n' :: rest => basicLines? .taking rest
  | .opened, '\r' :: '\n' :: rest => basicLines? .taking rest
  | .opened, _ => none
  | .taking, ' ' :: rest => basicLines? .taking rest
  | .taking, '\t' :: rest => basicLines? .taking rest
  | .taking, '\n' :: rest => basicLines? .taking rest
  | .taking, '\r' :: '\n' :: rest => basicLines? .taking rest
  | _, '"' :: '"' :: '"' :: rest => some (closing '"' rest)
  | _, '\r' :: '\n' :: rest =>
    withChar (some '\r') (withChar (some '\n') (basicLines? .off rest))
  | _, '\\' :: 'U' :: a :: b :: c :: d :: e :: f :: g :: h :: rest =>
    withChar (longChar? (hexUnit? a b c d) (hexUnit? e f g h)) (basicLines? .off rest)
  | _, '\\' :: 'u' :: a :: b :: c :: d :: rest =>
    withChar (shortChar? a b c d) (basicLines? .off rest)
  | _, '\\' :: 'x' :: a :: b :: rest => withChar (byteChar? a b) (basicLines? .off rest)
  | _, '\\' :: ' ' :: rest => basicLines? .opened rest
  | _, '\\' :: '\t' :: rest => basicLines? .opened rest
  | _, '\\' :: '\n' :: rest => basicLines? .taking rest
  | _, '\\' :: '\r' :: '\n' :: rest => basicLines? .taking rest
  | _, '\\' :: letter :: rest => withChar (letterEscape? letter) (basicLines? .off rest)
  | _, c :: rest =>
    if c != '\\' && (c == '\n' || isPlainChar c) then
      withChar (some c) (basicLines? .off rest)
    else none
  | _, [] => none

/-- A string that starts here with a quote of either kind. -/
def quoted? (text : List Char) : Option (List Char × List Char) :=
  match text with
  | '"' :: '"' :: '"' :: rest => basicLines? .off (pastBreak rest)
  | '"' :: rest => basic? rest
  | '\'' :: '\'' :: '\'' :: rest => literalLines? (pastBreak rest)
  | '\'' :: rest => literal? rest
  | _ => none

end BlockForge.Toml
