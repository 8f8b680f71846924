/-
# Literals in source text

PHP cuts a source text at its single-quoted literals before it does anything else. What
stands between two quotes is text, and only the backslash and the quote itself are escaped
in it; what stands outside of them is code, character by character.

The main statement on layout is that indentation respects this cut. Moving a text to the
right adds spaces to its code, and to a literal exactly where the literal holds a newline:
no indentation can open or close a literal, whatever stands inside.
-/

import BlockForge.Code.Literal
import BlockForge.Proofs.Text.Lines

namespace BlockForge.Code

open BlockForge.Text

/-- Reads a literal behind its opening quote: the text that it denotes, and what follows its
closing quote. A backslash escapes a backslash or a quote and stands for itself elsewhere. -/
def readQuoted : List Char → Option (List Char × List Char)
  | [] => none
  | '\'' :: rest => some ([], rest)
  | '\\' :: '\\' :: rest => (readQuoted rest).map fun (text, after) => ('\\' :: text, after)
  | '\\' :: '\'' :: rest => (readQuoted rest).map fun (text, after) => ('\'' :: text, after)
  | c :: rest => (readQuoted rest).map fun (text, after) => (c :: text, after)

/-- What is left after a character was put before a text is what was left without it. -/
private theorem after_of_map_cons {c : Char} {inner : Option (List Char × List Char)}
    {text after : List Char}
    (closed : inner.map (fun (text, after) => (c :: text, after)) = some (text, after)) :
    ∃ within, inner = some (within, after) := by
  rw [Option.map_eq_some_iff] at closed
  obtain ⟨⟨within, beyond⟩, closed, equal⟩ := closed
  rw [Prod.mk.injEq] at equal
  exact ⟨within, by rw [closed, equal.2]⟩

/-- A closing quote consumes something, so a reader that goes on behind it ends. -/
theorem readQuoted_length {source text after : List Char}
    (closed : readQuoted source = some (text, after)) : after.length < source.length := by
  fun_induction readQuoted source generalizing text with
  | case1 => cases closed
  | case2 rest =>
      cases closed
      exact Nat.lt_succ_self _
  | case3 rest ih =>
      obtain ⟨within, closed⟩ := after_of_map_cons closed
      exact Nat.lt_add_right 2 (ih closed)
  | case4 rest ih =>
      obtain ⟨within, closed⟩ := after_of_map_cons closed
      exact Nat.lt_add_right 2 (ih closed)
  | case5 c rest _ _ _ ih =>
      obtain ⟨within, closed⟩ := after_of_map_cons closed
      exact Nat.lt_succ_of_lt (ih closed)

/-- A character that neither closes the literal nor escapes the next one stands for itself. -/
theorem readQuoted_plain {c : Char} (noQuote : c ≠ '\'') {rest : List Char}
    (inert : c = '\\' → rest.head? ≠ some '\\' ∧ rest.head? ≠ some '\'') :
    readQuoted (c :: rest) = (readQuoted rest).map fun (text, after) => (c :: text, after) := by
  rw [readQuoted.eq_5 c rest noQuote]
  · rintro following isBackslash rfl
    exact (inert isBackslash).1 rfl
  · rintro following isBackslash rfl
    exact (inert isBackslash).2 rfl

theorem readQuoted_cons {c : Char} (noBackslash : c ≠ '\\') (noQuote : c ≠ '\'')
    (rest : List Char) :
    readQuoted (c :: rest) = (readQuoted rest).map fun (text, after) => (c :: text, after) :=
  readQuoted_plain noQuote fun isBackslash => absurd isBackslash noBackslash

/-- The conditions under which the reader takes a character as it stands. -/
theorem inert_of_no_escape {c : Char} {rest : List Char}
    (noBackslash : ∀ following, c = '\\' → rest = '\\' :: following → False)
    (noEscape : ∀ following, c = '\\' → rest = '\'' :: following → False) :
    c = '\\' → rest.head? ≠ some '\\' ∧ rest.head? ≠ some '\'' := by
  intro isBackslash
  cases rest with
  | nil => exact ⟨nofun, nofun⟩
  | cons d following =>
      refine ⟨fun head => ?_, fun head => ?_⟩
      · exact noBackslash following isBackslash (by rw [Option.some.inj head])
      · exact noEscape following isBackslash (by rw [Option.some.inj head])

/-- Reading what was quoted gives the text back and leaves the rest alone, however many
backslashes stand before a quote or at the end. -/
theorem readQuoted_escape (text rest : List Char) :
    readQuoted (escape text ++ '\'' :: rest) = some (text, rest) := by
  induction text with
  | nil => rfl
  | cons c text ih =>
      simp only [escape, List.flatMap_cons, List.append_assoc] at ih ⊢
      by_cases backslash : c = '\\'
      · subst backslash
        simp [escapeChar, readQuoted, ih]
      · by_cases quote : c = '\''
        · subst quote
          simp [escapeChar, readQuoted, ih]
        · rw [escapeChar, if_neg (by simp [backslash, quote]), List.singleton_append,
            readQuoted_cons backslash quote, ih]
          rfl

/-- Source text with its literals cut out. -/
inductive Lexeme where
  | code (c : Char)
  | literal (text : List Char)
  deriving DecidableEq

/-- The lexemes of a source text; none if its last literal is not closed. -/
def lexemes (source : List Char) : Option (List Lexeme) :=
  match source with
  | [] => some []
  | c :: rest =>
    if c = '\'' then
      match _closed : readQuoted rest with
      | none => none
      | some (text, after) => (lexemes after).map (.literal text :: ·)
    else (lexemes rest).map (.code c :: ·)
  termination_by source.length
  decreasing_by
    · have shorter := readQuoted_length _closed
      simp only [List.length_cons]
      omega
    · simp

@[simp]
theorem lexemes_nil : lexemes [] = some [] := by
  rw [lexemes]

theorem lexemes_code {c : Char} (noQuote : c ≠ '\'') (rest : List Char) :
    lexemes (c :: rest) = (lexemes rest).map (.code c :: ·) := by
  rw [lexemes, if_neg noQuote]

theorem lexemes_quote {rest text after : List Char}
    (closed : readQuoted rest = some (text, after)) :
    lexemes ('\'' :: rest) = (lexemes after).map (.literal text :: ·) := by
  rw [lexemes, if_pos rfl]
  split
  · rename_i unclosed
    rw [unclosed] at closed
    cases closed
  · rename_i other beyond same
    rw [same, Option.some.injEq, Prod.mk.injEq] at closed
    rw [closed.1, closed.2]

theorem lexemes_unclosed {rest : List Char} (unclosed : readQuoted rest = none) :
    lexemes ('\'' :: rest) = none := by
  rw [lexemes, if_pos rfl]
  split
  · rfl
  · rename_i closed
    rw [unclosed] at closed
    cases closed

/-- A literal of any text is one lexeme. -/
theorem lexemes_quote_append (text rest : List Char) :
    lexemes (quote text ++ rest) = (lexemes rest).map (.literal text :: ·) := by
  have closed : readQuoted (escape text ++ ['\''] ++ rest) = some (text, rest) := by
    rw [List.append_assoc, List.singleton_append, readQuoted_escape]
  rw [quote, List.cons_append, List.cons_append, lexemes_quote closed]

/-- More code after a literal was closed does not reopen it. -/
theorem readQuoted_append {source text after : List Char}
    (closed : readQuoted source = some (text, after)) (rest : List Char) :
    readQuoted (source ++ rest) = some (text, after ++ rest) := by
  fun_induction readQuoted source generalizing text after with
  | case1 => cases closed
  | case2 source =>
      cases closed
      rfl
  | case3 source ih =>
      obtain ⟨⟨inner, beyond⟩, closed, equal⟩ := Option.map_eq_some_iff.mp closed
      cases equal
      simp [readQuoted, ih closed]
  | case4 source ih =>
      obtain ⟨⟨inner, beyond⟩, closed, equal⟩ := Option.map_eq_some_iff.mp closed
      cases equal
      simp [readQuoted, ih closed]
  | case5 c source noQuote noBackslash noEscape ih =>
      obtain ⟨⟨inner, beyond⟩, closed, equal⟩ := Option.map_eq_some_iff.mp closed
      cases equal
      have inert := inert_of_no_escape noBackslash noEscape
      have sameHead : (source ++ rest).head? = source.head? := by
        cases source with
        | nil => cases closed
        | cons d source => rfl
      rw [List.cons_append, readQuoted_plain noQuote (by rwa [sameHead]), ih closed]
      rfl

/-- A text whose literals are all closed is cut without regard to what follows. -/
theorem lexemes_append {source : List Char} {cut : List Lexeme} (closed : lexemes source = some cut)
    (rest : List Char) : lexemes (source ++ rest) = (lexemes rest).map (cut ++ ·) := by
  fun_induction lexemes source generalizing cut with
  | case1 =>
      cases closed
      simp
  | case2 source unclosed => cases closed
  | case3 source text after inner ih =>
      obtain ⟨later, cutAfter, rfl⟩ := Option.map_eq_some_iff.mp closed
      rw [List.cons_append, lexemes_quote (readQuoted_append inner rest), ih cutAfter,
        Option.map_map]
      rfl
  | case4 c source noQuote ih =>
      obtain ⟨later, cutAfter, rfl⟩ := Option.map_eq_some_iff.mp closed
      rw [List.cons_append, lexemes_code noQuote, ih cutAfter, Option.map_map]
      rfl

end BlockForge.Code
