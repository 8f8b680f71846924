/-
# Words and lines

What counts as blank is decided once for the whole library: the characters with the
white-space property of the Unicode character database. Word splitting, the indentation of
generated code and the reading of durations all ask this one predicate, so that a line
holding only an ideographic space is as blank as an empty one.

A text is its lines with a newline between each two, so a text ending in a newline has an
empty last line and joining the lines of a text gives the text back. Indentation is put
before every line that is not blank; blank lines pass unchanged.

A block is known under one name in three spellings: its class is in PascalCase, its code
in snake_case and its template in kebab-case. The conversions are total on every text,
and a text that does not become a legal name is found by the checks on descriptions, not
here. The two separated spellings are one function of the separator. It never looks further
than the last character it has written, which is all the state it carries.
-/

import BlockForge.Text.Casing

namespace BlockForge.Text

/-! ## Blank characters -/

/-- Ranges of the characters with the white-space property. -/
def blankRanges : List (Nat × Nat) :=
  [(0x9, 0xD), (0x20, 0x20), (0x85, 0x85), (0xA0, 0xA0), (0x1680, 0x1680), (0x2000, 0x200A),
    (0x2028, 0x2029), (0x202F, 0x202F), (0x205F, 0x205F), (0x3000, 0x3000)]

def isBlank (c : Char) : Bool :=
  blankRanges.any fun (first, last) => first ≤ c.toNat && c.toNat ≤ last

/-- A line is blank when all of its characters are; the empty line is. -/
def isBlankLine (line : List Char) : Bool :=
  line.all isBlank

/-- The text from its first character that is not blank on. -/
def trimStart (text : List Char) : List Char :=
  text.dropWhile isBlank

/-! ## Lines -/

/-- Splits a text at the characters that satisfy a test. The pieces are kept even where
they are empty, so there is always one more piece than there are separators. -/
def splitWhere (separates : Char → Bool) (text : List Char) : List (List Char) :=
  text.foldr
    (fun c pieces =>
      if separates c then [] :: pieces
      else
        match pieces with
        | [] => [[c]]
        | piece :: others => (c :: piece) :: others)
    [[]]

/-- The lines of a text, without the newlines between them. -/
def lines (text : List Char) : List (List Char) :=
  splitWhere (· == '\n') text

/-- Lines with a newline between each two. -/
def joinLines (ls : List (List Char)) : List Char :=
  ['\n'].intercalate ls

/-- A line moved to the right unless it is blank. -/
def indentLine (columns : Nat) (line : List Char) : List Char :=
  if isBlankLine line then line else List.replicate columns ' ' ++ line

/-- A text with every line that is not blank moved to the right. -/
def indent (columns : Nat) (text : List Char) : List Char :=
  joinLines ((lines text).map (indentLine columns))

/-! ## Words -/

/-- Underscores, dashes and blank characters stand between words. -/
def isWordGap (c : Char) : Bool :=
  c == '_' || c == '-' || isBlank c

def capitalized : List Char → List Char
  | [] => []
  | c :: rest => upper c ++ rest

/-- The words of a text run together, each with its first character in upper case. -/
def pascalCase (text : String) : String :=
  String.ofList ((splitWhere isWordGap text.toList).flatMap capitalized)

/-- The rest of a text in lower case with its words set apart, given the last character
written so far. An upper-case character opens a word unless nothing stands before it or a
separator does. -/
def separatedFrom (separator : Char) : Option Char → List Char → List Char
  | _, [] => []
  | last, c :: rest =>
    if c == '_' || c == '-' then
      separator :: separatedFrom separator (some separator) rest
    else
      let gap := if isUpper c && last.any (· != separator) then [separator] else []
      gap ++ lower c ++ separatedFrom separator (lower c).getLast? rest

def snakeCase (text : String) : String :=
  String.ofList (separatedFrom '_' none text.toList)

def kebabCase (text : String) : String :=
  String.ofList (separatedFrom '-' none text.toList)

end BlockForge.Text
