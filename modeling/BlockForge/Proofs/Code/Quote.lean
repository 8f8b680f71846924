/-
# Where a literal ends

PHP has no other way to find the end of a single-quoted literal than to look for the first
quote that is not escaped, so a text is safe inside of a literal only if its escaped form
holds no such quote and does not turn the closing quote into an escaped one. The main
statement is that this never happens: the literal of a text is read to its last character
and no further, whatever follows, and denotes the text.

Escaping goes through the text once, character by character. It is the same as doubling
every backslash first and putting one before every quote afterwards; the other order would
double the backslashes that were put before the quotes.
-/

import BlockForge.Proofs.Code.Lexeme

namespace BlockForge.Code

/-- Reads a literal at the start of a source text: the text that it denotes, and what
follows it. -/
def readLiteral? : List Char → Option (List Char × List Char)
  | [] => none
  | c :: rest => if c = '\'' then readQuoted rest else none

/-- A text with another one in place of each occurrence of a character. -/
def replaceEach (old : Char) (new text : List Char) : List Char :=
  text.flatMap fun c => if c = old then new else [c]

/-- Two replacements one after the other escape a text, since no quote is a backslash. -/
theorem replaceEach_replaceEach_eq_escape (text : List Char) :
    replaceEach '\'' ['\\', '\''] (replaceEach '\\' ['\\', '\\'] text) = escape text := by
  have each (c : Char) :
      (if c = '\\' then ['\\', '\\'] else [c]).flatMap
        (fun d => if d = '\'' then ['\\', '\''] else [d]) = escapeChar c := by
    by_cases backslash : c = '\\'
    · subst backslash
      rfl
    · by_cases quote : c = '\''
      · subst quote
        rfl
      · simp [escapeChar, backslash, quote]
  rw [replaceEach, replaceEach, escape, List.flatMap_assoc]
  congr 1
  funext c
  exact each c

theorem readLiteral?_quote_append (text rest : List Char) :
    readLiteral? (quote text ++ rest) = some (text, rest) := by
  rw [quote, List.cons_append, List.cons_append, readLiteral?, if_pos rfl, List.append_assoc]
  exact readQuoted_escape text rest

/-- A literal that is closed stays the same when more follows. -/
theorem readLiteral?_append {source text after : List Char}
    (closed : readLiteral? source = some (text, after)) (rest : List Char) :
    readLiteral? (source ++ rest) = some (text, after ++ rest) := by
  cases source with
  | nil => cases closed
  | cons c source =>
      rw [readLiteral?] at closed
      rw [List.cons_append, readLiteral?]
      split at closed
      · rename_i opening
        rw [if_pos opening]
        exact readQuoted_append closed rest
      · cases closed

/-- A literal that is cut off before its end is not closed. -/
theorem readLiteral?_eq_none_of_append {front back text : List Char}
    (cut : quote text = front ++ back) (nonempty : back ≠ []) : readLiteral? front = none := by
  apply Option.eq_none_iff_forall_ne_some.mpr
  rintro ⟨read, after⟩ closed
  have whole := readLiteral?_quote_append text []
  rw [List.append_nil, cut, readLiteral?_append closed, Option.some.injEq, Prod.mk.injEq] at whole
  exact nonempty (List.append_eq_nil_iff.mp whole.2).2

/-- The literal of a text is read as this text, with whatever follows it left over. Of its own
characters none is left over and none can be spared, and what stands between its quotes is
the text with the backslashes doubled and then one put before each quote. -/
theorem quote_read_exactly (text rest : List Char) :
    readLiteral? (quote text ++ rest) = some (text, rest) ∧
      (∀ count, (readLiteral? ((quote text).take count)).isSome ↔
        (quote text).length ≤ count) ∧
      quote text = '\'' :: replaceEach '\'' ['\\', '\''] (replaceEach '\\' ['\\', '\\'] text)
        ++ ['\''] := by
  refine ⟨readLiteral?_quote_append text rest, fun count => ?_, ?_⟩
  · constructor
    · intro read
      apply Nat.le_of_not_lt
      intro short
      have left : (quote text).drop count ≠ [] := by
        rw [Ne, List.drop_eq_nil_iff]
        exact Nat.not_le_of_lt short
      rw [readLiteral?_eq_none_of_append (List.take_append_drop count _).symm left] at read
      cases read
    · intro enough
      have whole := readLiteral?_quote_append text []
      rw [List.append_nil] at whole
      rw [List.take_of_length_le enough, whole]
      rfl
  · rw [replaceEach_replaceEach_eq_escape, quote]

/-- A text of backslashes and quotes only, and code that looks like the rest of a literal. -/
example : readLiteral? (quote "\\'\\".toList ++ "', 'x'".toList) =
    some ("\\'\\".toList, "', 'x'".toList) := by
  decide

end BlockForge.Code
