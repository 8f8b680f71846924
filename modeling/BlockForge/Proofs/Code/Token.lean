/-
# Tokens of source text

Between its literals, PHP code is cut into tokens: names, numbers, variables with what is
reached through them, and marks. A token goes on as long as its characters fit together, and
white space only separates. The tokens here are those that array literals are made of; any
other character is a token of its own, which no reader of arrays accepts.

Tokens do not see indentation. Moving a source text leaves its tokens in place and moves
only the texts of its literals.
-/

import BlockForge.Proofs.Code.Displacement
import BlockForge.Proofs.Text.Split

namespace BlockForge.Code

open BlockForge.Text

inductive Token where
  | literal (text : List Char)
  | plain (text : List Char)
  deriving DecidableEq

def isLabelChar (c : Char) : Bool :=
  c.isAlphanum || c == '_' || 128 ≤ c.toNat

def isGap (c : Char) : Bool :=
  c == ' ' || c == '\n' || c == '\t' || c == '\r'

/-- Whether a character belongs to the token that has begun before it. A number goes on with
its fraction and with a power of ten, whose sign stands right after its mark. -/
def continues (token : List Char) (c : Char) : Bool :=
  match token with
  | [] => false
  | first :: _ =>
    if first.isDigit then
      isLabelChar c || c == '.'
        || ((c == '+' || c == '-') && (token.getLast? == some 'e' || token.getLast? == some 'E'))
    else if first == '$' then isLabelChar c || c == '-' || c == '>'
    else if isLabelChar first then isLabelChar c
    else token == ['='] && c == '>'

/-- The token that has been read, if any of it has. -/
def finished (token : List Char) : List Token :=
  if token.isEmpty then [] else [.plain token]

/-- The tokens of lexemes behind a token that has begun. -/
def tokensFrom (token : List Char) : List Lexeme → List Token
  | [] => finished token
  | .literal text :: rest => finished token ++ .literal text :: tokensFrom [] rest
  | .code c :: rest =>
    if continues token c then tokensFrom (token ++ [c]) rest
    else if isGap c then finished token ++ tokensFrom [] rest
    else finished token ++ tokensFrom [c] rest

/-- The tokens of a source text; none if its last literal is not closed. -/
def tokens? (source : List Char) : Option (List Token) :=
  (lexemes source).map (tokensFrom [])

def Token.displace (columns : Nat) : Token → Token
  | .literal text => .literal (Code.displace columns text)
  | .plain text => .plain text

/-- A character that no token goes on with. -/
def breaks (c : Char) : Bool :=
  !isLabelChar c && c != '.' && c != '+' && c != '-' && c != '>' && c != '\''

theorem continues_of_breaks {c : Char} (broken : breaks c) (token : List Char) :
    continues token c = false := by
  simp only [breaks, Bool.and_eq_true, Bool.not_eq_true', bne_iff_ne, ne_eq] at broken
  obtain ⟨⟨⟨⟨⟨noLabel, noPoint⟩, noPlus⟩, noMinus⟩, noHead⟩, _⟩ := broken
  cases token with
  | nil => rfl
  | cons first rest => simp [continues, noLabel, noPoint, noPlus, noMinus, noHead]

theorem noQuote_of_breaks {c : Char} (broken : breaks c) : c ≠ '\'' :=
  ne_of_kind broken rfl

theorem breaks_of_isGap {c : Char} (gap : isGap c) : breaks c := by
  simp only [isGap, Bool.or_eq_true, beq_iff_eq] at gap
  rcases gap with ((rfl | rfl) | rfl) | rfl <;> decide

/-- White space ends a token and gives none. -/
theorem tokensFrom_gap {c : Char} (gap : isGap c) (token : List Char) (rest : List Lexeme) :
    tokensFrom token (.code c :: rest) = finished token ++ tokensFrom [] rest := by
  rw [tokensFrom, continues_of_breaks (breaks_of_isGap gap), if_neg Bool.false_ne_true,
    if_pos gap]

/-- A character that no token goes on with ends the token before it. -/
theorem tokensFrom_append_code {c : Char} (broken : breaks c) (token : List Char)
    (before after : List Lexeme) :
    tokensFrom token (before ++ .code c :: after) =
      tokensFrom token before ++ tokensFrom [] (.code c :: after) := by
  induction before generalizing token with
  | nil =>
      simp only [List.nil_append, tokensFrom, continues_of_breaks broken, Bool.false_eq_true,
        if_false]
      split <;> rfl
  | cons lexeme before ih =>
      cases lexeme with
      | literal text => simp [tokensFrom, ih]
      | code d =>
          simp only [List.cons_append, tokensFrom, ih]
          split
          · rfl
          · split <;> rw [List.append_assoc]

/-- Margins are no tokens. -/
theorem tokensFrom_margin (columns : Nat) (cut rest : List Lexeme) :
    tokensFrom [] (marginLexemes columns cut ++ rest) = tokensFrom [] rest := by
  have spaces (count : Nat) :
      tokensFrom [] (List.replicate count (.code ' ') ++ rest) = tokensFrom [] rest := by
    induction count with
    | zero => rfl
    | succ count ih =>
        rw [List.replicate_succ, List.cons_append, tokensFrom_gap (by decide), ih]
        rfl
  rw [marginLexemes]
  split
  · rfl
  · exact spaces columns

theorem map_displace_finished (columns : Nat) (token : List Char) :
    (finished token).map (Token.displace columns) = finished token := by
  rw [finished]
  split <;> rfl

/-- Moving lexemes moves the literals among their tokens. -/
theorem tokensFrom_indentLexemes (columns : Nat) (token : List Char) (cut : List Lexeme) :
    tokensFrom token (indentLexemes columns cut) =
      (tokensFrom token cut).map (Token.displace columns) := by
  induction cut generalizing token with
  | nil => rw [indentLexemes, tokensFrom, map_displace_finished]
  | cons lexeme cut ih =>
      cases lexeme with
      | literal text =>
          simp [indentLexemes, tokensFrom, ih, map_displace_finished, Token.displace]
      | code c =>
          by_cases newline : c = '\n'
          · subst newline
            rw [indentLexemes, if_pos rfl, tokensFrom_gap (by decide),
              tokensFrom_gap (by decide), tokensFrom_margin, ih, List.map_append,
              map_displace_finished]
          · rw [indentLexemes, if_neg newline, tokensFrom, tokensFrom]
            split
            · exact ih _
            · split <;> rw [ih, List.map_append, map_displace_finished]

/-- Indentation moves the literals of a source text and nothing else. -/
theorem tokens?_indent {columns : Nat} {source : List Char} {tokens : List Token}
    (scanned : tokens? source = some tokens) :
    tokens? (indent columns source) = some (tokens.map (Token.displace columns)) := by
  obtain ⟨cut, closed, rfl⟩ := Option.map_eq_some_iff.mp scanned
  rw [tokens?, lexemes_indent closed, Option.map_some, tokensFrom_margin,
    tokensFrom_indentLexemes]

/-! ## Scanning piece by piece -/

@[simp]
theorem tokens?_nil : tokens? [] = some [] := by
  rw [tokens?, lexemes_nil]
  rfl

/-- Source text is scanned up to a character that ends every token, and then on. -/
theorem tokens?_append_code {before : List Char} {tokens : List Token}
    (scanned : tokens? before = some tokens) {c : Char} (broken : breaks c)
    (after : List Char) :
    tokens? (before ++ c :: after) = (tokens? (c :: after)).map (tokens ++ ·) := by
  obtain ⟨cut, closed, rfl⟩ := Option.map_eq_some_iff.mp scanned
  rw [tokens?, tokens?, lexemes_append closed, lexemes_code (noQuote_of_breaks broken)]
  simp only [Option.map_map]
  congr 1
  funext later
  exact tokensFrom_append_code broken [] cut later

theorem tokens?_quote_append (text rest : List Char) :
    tokens? (quote text ++ rest) = (tokens? rest).map (.literal text :: ·) := by
  rw [tokens?, tokens?, lexemes_quote_append, Option.map_map, Option.map_map]
  rfl

theorem tokens?_gap {c : Char} (gap : isGap c) (rest : List Char) :
    tokens? (c :: rest) = tokens? rest := by
  rw [tokens?, tokens?, lexemes_code (noQuote_of_breaks (breaks_of_isGap gap)), Option.map_map]
  congr 1
  funext later
  exact tokensFrom_gap gap [] later

theorem tokens?_gaps {gap : List Char} (white : gap.all isGap) (rest : List Char) :
    tokens? (gap ++ rest) = tokens? rest := by
  induction gap with
  | nil => rfl
  | cons c gap ih =>
      rw [List.all_cons, Bool.and_eq_true] at white
      rw [List.cons_append, tokens?_gap white.1]
      exact ih white.2

/-- A word is one token before a space. -/
theorem tokens?_word {word : List Char} (alone : tokens? word = some [.plain word])
    (rest : List Char) :
    tokens? (word ++ ' ' :: rest) = (tokens? rest).map (.plain word :: ·) := by
  rw [tokens?_append_code alone (by decide), tokens?_gap (by decide)]
  rfl

/-- The marks that are a token by themselves, whatever follows. -/
def isMark (c : Char) : Bool :=
  c == '[' || c == ']' || c == '(' || c == ')' || c == ',' || c == ';' || c == '-'

/-- A mark is one token. -/
theorem tokens?_mark {c : Char} (mark : isMark c) (rest : List Char) :
    tokens? (c :: rest) = (tokens? rest).map (.plain [c] :: ·) := by
  have alone : c ≠ '\'' ∧ isGap c = false ∧ ∀ d, continues [c] d = false := by
    simp only [isMark, Bool.or_eq_true, beq_iff_eq] at mark
    rcases mark with (((((rfl | rfl) | rfl) | rfl) | rfl) | rfl) | rfl <;>
      exact ⟨by decide, by decide, fun d => by simp [continues, isLabelChar]⟩
  obtain ⟨noQuote, noGap, ends⟩ := alone
  have behind (later : List Lexeme) :
      tokensFrom [c] later = .plain [c] :: tokensFrom [] later := by
    cases later with
    | nil => rfl
    | cons lexeme later =>
        cases lexeme with
        | literal text => rfl
        | code d =>
            rw [tokensFrom, ends d, tokensFrom]
            simp only [continues, Bool.false_eq_true, if_false]
            split <;> rfl
  rw [tokens?, tokens?, lexemes_code noQuote, Option.map_map, Option.map_map]
  congr 1
  funext later
  simp [tokensFrom, noGap, continues, finished, behind]

end BlockForge.Code
