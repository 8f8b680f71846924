/-
# TOML documents

A document is a row of expressions, one a line: a header, a header of one of several
tables, or a key with a value. Reading a document is two steps. The first one goes through
the text and gives the expressions; the second one adds them to a draft, each below the
header that precedes it.

Reading either gives the table of the document or nothing. Where a document breaks off is
not told.
-/

import BlockForge.Toml.Draft
import BlockForge.Toml.Quoted
import BlockForge.Toml.Value

namespace BlockForge.Toml

/-- A key with the keys that lead to it. -/
structure KeyPath where
  way : List String
  key : String
  deriving DecidableEq

/-- The keys of a path, the last one included. -/
def KeyPath.names (path : KeyPath) : List String := path.way ++ [path.key]

/-- One line of a document that says something. -/
inductive Expression where
  | header (path : KeyPath)
  /-- Declares one of several tables. -/
  | nextHeader (path : KeyPath)
  | assign (path : KeyPath) (v : Value)

def pastBlanks (text : List Char) : List Char := text.dropWhile isBlankChar

def isBareChar (c : Char) : Bool := c.isAlphanum || c == '_' || c == '-'

def key? (text : List Char) : Option (String × List Char) :=
  match text with
  | '"' :: rest => (basic? rest).map fun (cs, rest) => (String.ofList cs, rest)
  | '\'' :: rest => (literal? rest).map fun (cs, rest) => (String.ofList cs, rest)
  | text =>
    let bare := text.takeWhile isBareChar
    if bare.isEmpty then none else some (String.ofList bare, text.dropWhile isBareChar)

/-- How deeply values may be nested, and how many keys a path may have. -/
def greatestDepth : Nat := 80

/-- Keys with dots between them, and past the blanks after the last one. The first argument
is how many keys there may be. -/
def keysUpTo? : Nat → List Char → Option (KeyPath × List Char)
  | 0, _ => none
  | limit + 1, text => do
    let (key, rest) ← key? text
    match pastBlanks rest with
    | '.' :: rest =>
      let (path, rest) ← keysUpTo? limit (pastBlanks rest)
      return (⟨key :: path.way, path.key⟩, rest)
    | rest => return (⟨[], key⟩, rest)

/-- A path of at most `greatestDepth` keys, and past the blanks after it. -/
def keyPath? (text : List Char) : Option (KeyPath × List Char) :=
  keysUpTo? greatestDepth text

/-- Past a comment, if there is one, up to the end of its line. -/
def pastComment? (text : List Char) : Option (List Char) :=
  match text with
  | '#' :: rest =>
    match rest.dropWhile isPlainChar with
    | [] => some []
    | '\n' :: rest => some ('\n' :: rest)
    | '\r' :: '\n' :: rest => some ('\n' :: rest)
    | _ => none
  | rest => some rest

/-- Past blanks, comments and ends of lines. The fuel bounds the number of lines. -/
def pastLines? : Nat → List Char → Option (List Char)
  | 0, _ => none
  | fuel + 1, text => do
    match ← pastComment? (pastBlanks text) with
    | '\n' :: rest => pastLines? fuel rest
    | '\r' :: '\n' :: rest => pastLines? fuel rest
    | rest => return rest

/-- Past all that may stand between two parts of a value: blanks, comments and ends of
lines. -/
def pastGap? (text : List Char) : Option (List Char) := pastLines? (text.length + 1) text

/-- Whether a character ends an unquoted scalar. -/
def endsScalar (c : Char) : Bool :=
  c == '=' || c == ',' || c == '[' || c == ']' || c == '\x7b' || c == '\x7d'
    || c == ' ' || c == '\t' || c == '#' || c == '\r' || c == '\n'

/-- The text of an unquoted scalar. A blank may stand between a date and a time. -/
def scalarText (text : List Char) : List Char × List Char :=
  let first := text.takeWhile (!endsScalar ·)
  match text.dropWhile (!endsScalar ·) with
  | ' ' :: c :: rest =>
    if c.isDigit && afterDate? first == some [] then
      (first ++ ' ' :: (c :: rest).takeWhile (!endsScalar ·),
        (c :: rest).dropWhile (!endsScalar ·))
    else (first, ' ' :: c :: rest)
  | rest => (first, rest)

/-- Adds one entry of a table that is written in one piece. -/
def addInline (entries : DraftEntries) (path : KeyPath) (v : Value) : Option DraftEntries :=
  Addition.under true path.way (.assign (!path.way.isEmpty) path.key v) .declared entries

/-- A key with the equals sign after it. Lines may end on both sides of the sign, as they may
anywhere in a table that is written in one piece but around a dot. -/
def inlineKey? (text : List Char) : Option (KeyPath × List Char) := do
  let (path, rest) ← keyPath? text
  match ← pastGap? rest with
  | '=' :: rest => return (path, ← pastGap? rest)
  | _ => none

mutual

/-- The value that comes next and what follows it. The fuel bounds the number of steps, the
levels how many more arrays and tables may be entered. -/
def value? : Nat → Nat → List Char → Option (Value × List Char)
  | 0, _, _ => none
  | fuel + 1, levels, text =>
    match text with
    | '[' :: rest =>
      if levels = 0 then none
      else
        (items? fuel (levels - 1) rest).map fun (items, rest) => (.array items, rest)
    | '\x7b' :: rest =>
      if levels = 0 then none
      else
        (entries? fuel (levels - 1) [] rest).map fun (entries, rest) =>
          (.table (finishedEntries entries), rest)
    | text =>
      match text with
      | '"' :: _ => (quoted? text).map fun (cs, rest) => (.string (String.ofList cs), rest)
      | '\'' :: _ => (quoted? text).map fun (cs, rest) => (.string (String.ofList cs), rest)
      | _ =>
        let (scalar, rest) := scalarText text
        (scalar? scalar).map (·, rest)

def items? : Nat → Nat → List Char → Option (List Value × List Char)
  | 0, _, _ => none
  | fuel + 1, levels, text =>
    match pastGap? text with
    | none => none
    | some (']' :: rest) => some ([], rest)
    | some text =>
      match value? fuel levels text with
      | none => none
      | some (item, rest) =>
        match pastGap? rest with
        | some (',' :: rest) =>
          (items? fuel levels rest).map fun (items, rest) => (item :: items, rest)
        | some (']' :: rest) => some ([item], rest)
        | _ => none

/-- The entries of a table written in one piece, added to those there are, up to its
closing brace. -/
def entries? : Nat → Nat → DraftEntries → List Char → Option (DraftEntries × List Char)
  | 0, _, _, _ => none
  | fuel + 1, levels, known, text =>
    match pastGap? text with
    | none => none
    | some ('\x7d' :: rest) => some (known, rest)
    | some text =>
      match inlineKey? text with
      | none => none
      | some (path, rest) =>
        match value? fuel levels rest with
        | none => none
        | some (v, rest) =>
          match addInline known path v with
          | none => none
          | some known =>
            match pastGap? rest with
            | some (',' :: rest) => entries? fuel levels known rest
            | some ('\x7d' :: rest) => some (known, rest)
            | _ => none

end

def readValue? (text : List Char) : Option (Value × List Char) :=
  value? (2 * text.length + 2) greatestDepth text

def expression? (text : List Char) : Option (Expression × List Char) := do
  let pathAt (text : List Char) := keyPath? (pastBlanks text)
  match text with
  | '[' :: '[' :: rest =>
    match ← pathAt rest with
    | (path, ']' :: ']' :: rest) => return (.nextHeader path, rest)
    | _ => none
  | '[' :: rest =>
    match ← pathAt rest with
    | (path, ']' :: rest) => return (.header path, rest)
    | _ => none
  | text =>
    match ← pathAt text with
    | (path, '=' :: rest) =>
      let (v, rest) ← readValue? (pastBlanks rest)
      return (.assign path v, rest)
    | _ => none

/-- Past the rest of a line on which nothing but a comment may stand. -/
def pastLine? (text : List Char) : Option (List Char) := do
  match ← pastComment? (pastBlanks text) with
  | [] => return []
  | '\n' :: rest => return rest
  | '\r' :: '\n' :: rest => return rest
  | _ => none

def expressions? : Nat → List Char → Option (List Expression)
  | 0, _ => none
  | fuel + 1, text => do
    match ← pastGap? text with
    | [] => return []
    | text =>
      let (expression, rest) ← expression? text
      return expression :: (← expressions? fuel (← pastLine? rest))

/-- Adds expressions to a draft. The first argument is the path of the last header. -/
def addExpressions : List String → DraftEntries → List Expression → Option DraftEntries
  | _, draft, [] => some draft
  | header, draft, expression :: rest =>
    match expression with
    | .header path =>
      (Addition.under false path.way (.declare path.key) .declared draft).bind fun draft =>
        addExpressions path.names draft rest
    | .nextHeader path =>
      (Addition.under false path.way (.declareNext path.key) .declared draft).bind
        fun draft => addExpressions path.names draft rest
    | .assign path v =>
      (Addition.under false header
        (.under true path.way (.assign (!path.way.isEmpty) path.key v)) .declared draft).bind
        fun draft => addExpressions header draft rest

/-- The mark that a text may begin with to tell its encoding. -/
def encodingMark : Char := '\ufeff'

/-- Reads a document. -/
def readDocument? (text : List Char) : Option Entries := do
  let text := if text.head? = some encodingMark then text.tail else text
  let expressions ← expressions? (text.length + 1) text
  return finishedEntries (← addExpressions [] [] expressions)

end BlockForge.Toml
