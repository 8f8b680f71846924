/-
# What indentation does to literals

Generated code is moved to the right line by line after its literals have been written, so
a literal that holds a newline is moved as well. This module says exactly how: spaces are
put behind a newline of the text, except where a blank line of the same text follows. The
line that ends at the closing quote is never blank.

Nothing else happens. Code keeps its characters apart from margins, every literal stays
one literal, and moving twice is moving by the sum.
-/

import BlockForge.Proofs.Code.Lexeme

namespace BlockForge.Code

open BlockForge.Text

/-- What the text of a literal becomes when the literal is moved to the right. The quote
that closes it stands on the last line. -/
def displace (columns : Nat) : List Char → List Char
  | [] => []
  | c :: rest =>
    if c = '\n' then '\n' :: (margin columns (rest ++ ['\'']) ++ displace columns rest)
    else c :: displace columns rest

@[simp]
theorem displace_nil (columns : Nat) : displace columns [] = [] := rfl

theorem displace_newline (columns : Nat) (rest : List Char) :
    displace columns ('\n' :: rest) =
      '\n' :: (margin columns (rest ++ ['\'']) ++ displace columns rest) := by
  simp [displace]

theorem displace_cons {c : Char} (inside : c ≠ '\n') (columns : Nat) (rest : List Char) :
    displace columns (c :: rest) = c :: displace columns rest := by
  simp [displace, inside]

/-! ## Margins -/

/-- Whether a margin is left out before a text. -/
def opensBlank (text : List Char) : Bool := isBlankLine (opening text)

theorem margin_eq (columns : Nat) (text : List Char) :
    margin columns text = if opensBlank text then [] else List.replicate columns ' ' := rfl

theorem opensBlank_newline (rest : List Char) : opensBlank ('\n' :: rest) = true := by
  simp [opensBlank, isBlankLine]

theorem opensBlank_cons {c : Char} (inside : c ≠ '\n') (rest : List Char) :
    opensBlank (c :: rest) = (isBlank c && opensBlank rest) := by
  simp [opensBlank, isBlankLine, opening_cons inside]

/-- A quote is on its line, so that line is not blank. -/
theorem opensBlank_quote (rest : List Char) : opensBlank ('\'' :: rest) = false := by
  have visible : isBlank '\'' = false := by decide
  rw [opensBlank_cons (by decide), visible, Bool.false_and]

theorem opensBlank_backslash (rest : List Char) : opensBlank ('\\' :: rest) = false := by
  have visible : isBlank '\\' = false := by decide
  rw [opensBlank_cons (by decide), visible, Bool.false_and]

theorem opensBlank_spaces (count : Nat) (rest : List Char) :
    opensBlank (List.replicate count ' ' ++ rest) = opensBlank rest := by
  have blank : isBlank ' ' = true := by decide
  induction count with
  | zero => rfl
  | succ count ih =>
      rw [List.replicate_succ, List.cons_append, opensBlank_cons (by decide), ih, blank,
        Bool.true_and]

/-- Moving a text does not change whether its first line is blank. -/
theorem opensBlank_displace_append (columns : Nat) (text rest : List Char) :
    opensBlank (displace columns text ++ rest) = opensBlank (text ++ rest) := by
  induction text with
  | nil => rfl
  | cons c text ih =>
      by_cases newline : c = '\n'
      · subst newline
        rw [displace_newline, List.cons_append, List.cons_append, opensBlank_newline,
          opensBlank_newline]
      · rw [displace_cons newline, List.cons_append, List.cons_append, opensBlank_cons newline,
          opensBlank_cons newline, ih]

/-! ## Moving texts -/

theorem displace_spaces (columns count : Nat) (rest : List Char) :
    displace columns (List.replicate count ' ' ++ rest) =
      List.replicate count ' ' ++ displace columns rest := by
  induction count with
  | zero => rfl
  | succ count ih =>
      rw [List.replicate_succ, List.cons_append, displace_cons (by decide), ih, List.cons_append]

@[simp]
theorem displace_zero (text : List Char) : displace 0 text = text := by
  induction text with
  | nil => rfl
  | cons c rest ih =>
      by_cases newline : c = '\n'
      · subst newline
        rw [displace_newline, ih, margin_eq]
        split <;> rfl
      · rw [displace_cons newline, ih]

/-- Moving twice is moving by the sum. -/
theorem displace_displace (first second : Nat) (text : List Char) :
    displace second (displace first text) = displace (first + second) text := by
  induction text with
  | nil => rfl
  | cons c rest ih =>
      by_cases newline : c = '\n'
      · subst newline
        rw [displace_newline, displace_newline, displace_newline]
        by_cases blank : opensBlank (rest ++ ['\''])
        · simp [margin_eq, blank, opensBlank_displace_append, ih]
        · simp only [margin_eq, blank, List.append_assoc, Bool.false_eq_true, if_false,
            opensBlank_spaces, opensBlank_displace_append, displace_spaces, ih]
          rw [← List.append_assoc, List.replicate_append_replicate, Nat.add_comm]
      · rw [displace_cons newline, displace_cons newline, displace_cons newline, ih]

theorem length_le_length_displace (columns : Nat) (text : List Char) :
    text.length ≤ (displace columns text).length := by
  induction text with
  | nil => exact Nat.le_refl _
  | cons c rest ih =>
      by_cases newline : c = '\n'
      · subst newline
        simp only [displace_newline, List.length_cons, List.length_append]
        omega
      · simp only [displace_cons newline, List.length_cons]
        omega

/-- A text in one line that stands before a quote is not blank. -/
theorem opensBlank_append_quote {text : List Char} (inLine : '\n' ∉ text) :
    opensBlank (text ++ ['\'']) = false := by
  induction text with
  | nil => exact opensBlank_quote []
  | cons c rest ih =>
      rw [List.mem_cons, not_or] at inLine
      rw [List.cons_append, opensBlank_cons (Ne.symm inLine.1), ih inLine.2, Bool.and_false]

/-- A newline gets at least one margin behind it: the one after the last newline stands
before the closing quote. -/
theorem length_lt_length_displace {columns : Nat} (moved : 0 < columns) {text : List Char}
    (newline : '\n' ∈ text) : text.length < (displace columns text).length := by
  induction text with
  | nil => cases newline
  | cons c rest ih =>
      by_cases here : c = '\n'
      · subst here
        simp only [displace_newline, List.length_cons, List.length_append]
        by_cases later : '\n' ∈ rest
        · have longer := ih later
          omega
        · have atLeast := length_le_length_displace columns rest
          have margined : (margin columns (rest ++ ['\''])).length = columns := by
            simp [margin_eq, opensBlank_append_quote later]
          omega
      · have later : '\n' ∈ rest := by
          rcases List.mem_cons.mp newline with first | later
          · exact absurd first.symm here
          · exact later
        have longer := ih later
        simp only [displace_cons here, List.length_cons]
        omega

/-- Exactly the texts in one line survive a move. -/
theorem displace_eq_self_iff {columns : Nat} (moved : 0 < columns) (text : List Char) :
    displace columns text = text ↔ '\n' ∉ text := by
  constructor
  · intro same newline
    have longer := length_lt_length_displace moved newline
    rw [same] at longer
    exact Nat.lt_irrefl _ longer
  · intro inLine
    induction text with
    | nil => rfl
    | cons c rest ih =>
        rw [List.mem_cons, not_or] at inLine
        rw [displace_cons (Ne.symm inLine.1), ih inLine.2]

/-- One text is another one with spaces inserted right after newlines. -/
inductive SpacedOut : List Char → List Char → Prop
  | nil : SpacedOut [] []
  | cons (c : Char) {text spaced : List Char} (rest : SpacedOut text spaced) :
      SpacedOut (c :: text) (c :: spaced)
  | newline (count : Nat) {text spaced : List Char} (rest : SpacedOut text spaced) :
      SpacedOut ('\n' :: text) ('\n' :: (List.replicate count ' ' ++ spaced))

theorem spacedOut_displace (columns : Nat) (text : List Char) :
    SpacedOut text (displace columns text) := by
  induction text with
  | nil => exact .nil
  | cons c rest ih =>
      by_cases newline : c = '\n'
      · subst newline
        rw [displace_newline, margin_eq]
        split
        · exact .cons '\n' ih
        · exact .newline columns ih
      · rw [displace_cons newline]
        exact .cons c ih

/-! ## Moving source text -/

/-- Whether the literal behind an opening quote ends on a line does not change whether that
line is blank: a quote is visible, and so is everything that is escaped. -/
theorem opensBlank_of_readQuoted {source text after : List Char}
    (closed : readQuoted source = some (text, after)) :
    opensBlank source = opensBlank (text ++ ['\'']) := by
  fun_induction readQuoted source generalizing text after with
  | case1 => cases closed
  | case2 rest =>
      cases closed
      rw [opensBlank_quote, List.nil_append, opensBlank_quote]
  | case3 rest ih =>
      obtain ⟨⟨inner, beyond⟩, closed, equal⟩ := Option.map_eq_some_iff.mp closed
      cases equal
      rw [opensBlank_backslash, List.cons_append, opensBlank_backslash]
  | case4 rest ih =>
      obtain ⟨⟨inner, beyond⟩, closed, equal⟩ := Option.map_eq_some_iff.mp closed
      cases equal
      rw [opensBlank_backslash, List.cons_append, opensBlank_quote]
  | case5 c rest _ _ _ ih =>
      obtain ⟨⟨inner, beyond⟩, closed, equal⟩ := Option.map_eq_some_iff.mp closed
      cases equal
      by_cases newline : c = '\n'
      · subst newline
        rw [opensBlank_newline, List.cons_append, opensBlank_newline]
      · rw [opensBlank_cons newline, List.cons_append, opensBlank_cons newline, ih closed]

theorem readQuoted_spaces (count : Nat) (rest : List Char) :
    readQuoted (List.replicate count ' ' ++ rest) =
      (readQuoted rest).map fun (text, after) => (List.replicate count ' ' ++ text, after) := by
  induction count with
  | zero => simp
  | succ count ih =>
      rw [List.replicate_succ, List.cons_append, readQuoted_cons (by decide) (by decide), ih,
        Option.map_map]
      rfl

/-- Moving the source of a literal moves the text that it denotes, and the code behind it. -/
theorem readQuoted_indentRest (columns : Nat) (source : List Char) :
    readQuoted (indentRest columns source) =
      (readQuoted source).map fun (text, after) =>
        (displace columns text, indentRest columns after) := by
  fun_induction readQuoted source with
  | case1 => rfl
  | case2 rest => rw [indentRest_cons (by decide)]; rfl
  | case3 rest ih =>
      rw [indentRest_cons (by decide), indentRest_cons (by decide), readQuoted, ih]
      cases readQuoted rest <;> rfl
  | case4 rest ih =>
      rw [indentRest_cons (by decide), indentRest_cons (by decide), readQuoted, ih]
      cases readQuoted rest <;> rfl
  | case5 c rest noQuote noBackslash noEscape ih =>
      have inert := inert_of_no_escape noBackslash noEscape
      by_cases newline : c = '\n'
      · subst newline
        rw [indentRest_newline, readQuoted_cons (by decide) (by decide)]
        cases closed : readQuoted rest with
        | none =>
            rw [closed] at ih
            rw [margin_eq]
            split <;> simp [readQuoted_spaces, ih]
        | some pair =>
            obtain ⟨text, after⟩ := pair
            rw [closed] at ih
            -- Escapes are not blank, so the text has a margin where its source has one.
            have sameMargin : margin columns rest = margin columns (text ++ ['\'']) := by
              rw [margin_eq, margin_eq, opensBlank_of_readQuoted closed]
            rw [sameMargin, margin_eq]
            by_cases blank : opensBlank (text ++ ['\''])
            · simp [blank, ih, displace_newline, margin_eq]
            · simp [blank, ih, displace_newline, margin_eq, readQuoted_spaces]
      · have sameHead : (indentRest columns rest).head? = rest.head? := by
          cases rest with
          | nil => rfl
          | cons d following => rw [indentRest]; split <;> simp_all
        rw [indentRest_cons newline, readQuoted_plain noQuote (by rwa [sameHead]), ih,
          Option.map_map, Option.map_map]
        congr 1
        funext pair
        simp [displace_cons newline]

/-- Whether a blank line opens a source text, as its lexemes show it. -/
def blankAhead : List Lexeme → Bool
  | [] => true
  | .literal _ :: _ => false
  | .code c :: rest => c == '\n' || (isBlank c && blankAhead rest)

/-- Spaces in code before a line that is not blank. -/
def marginLexemes (columns : Nat) (rest : List Lexeme) : List Lexeme :=
  if blankAhead rest then [] else List.replicate columns (.code ' ')

/-- The lexemes of a source text that is moved to the right from its second line on. -/
def indentLexemes (columns : Nat) : List Lexeme → List Lexeme
  | [] => []
  | .literal text :: rest => .literal (displace columns text) :: indentLexemes columns rest
  | .code c :: rest =>
    if c = '\n' then .code '\n' :: (marginLexemes columns rest ++ indentLexemes columns rest)
    else .code c :: indentLexemes columns rest

theorem blankAhead_of_lexemes {source : List Char} {cut : List Lexeme}
    (closed : lexemes source = some cut) : blankAhead cut = opensBlank source := by
  fun_induction lexemes source generalizing cut with
  | case1 =>
      cases closed
      rfl
  | case2 source unclosed => cases closed
  | case3 source text after inner ih =>
      obtain ⟨later, cutAfter, rfl⟩ := Option.map_eq_some_iff.mp closed
      rw [opensBlank_quote, blankAhead]
  | case4 c source noQuote ih =>
      obtain ⟨later, cutAfter, rfl⟩ := Option.map_eq_some_iff.mp closed
      by_cases newline : c = '\n'
      · subst newline
        rw [opensBlank_newline]
        rfl
      · rw [opensBlank_cons newline, blankAhead, ih cutAfter]
        simp [newline]

theorem lexemes_spaces_append (count : Nat) (rest : List Char) :
    lexemes (List.replicate count ' ' ++ rest) =
      (lexemes rest).map (List.replicate count (.code ' ') ++ ·) := by
  induction count with
  | zero => simp
  | succ count ih =>
      rw [List.replicate_succ, List.cons_append, lexemes_code (by decide), ih, Option.map_map]
      rfl

/-- A margin is cut off before a text exactly where the lexemes say so. -/
theorem lexemes_margin_append {columns : Nat} {source moved : List Char} {cut : List Lexeme}
    (closed : lexemes source = some cut) :
    lexemes (margin columns source ++ moved) =
      (lexemes moved).map (marginLexemes columns cut ++ ·) := by
  rw [margin_eq, marginLexemes, blankAhead_of_lexemes closed]
  by_cases blank : opensBlank source
  · simp [blank]
  · simp [blank, lexemes_spaces_append]

/-- Moving a source text moves its lexemes: none is opened, closed or split. -/
theorem lexemes_indentRest (columns : Nat) (source : List Char) :
    lexemes (indentRest columns source) = (lexemes source).map (indentLexemes columns) := by
  fun_induction lexemes source with
  | case1 => simp [indentLexemes]
  | case2 source unclosed =>
      rw [indentRest_cons (by decide), lexemes_unclosed]
      · rfl
      · rw [readQuoted_indentRest, unclosed]
        rfl
  | case3 source text after closed ih =>
      have closedMoved : readQuoted (indentRest columns source) =
          some (displace columns text, indentRest columns after) := by
        rw [readQuoted_indentRest, closed]
        rfl
      rw [indentRest_cons (by decide), lexemes_quote closedMoved, ih, Option.map_map,
        Option.map_map]
      rfl
  | case4 c source noQuote ih =>
      by_cases newline : c = '\n'
      · subst newline
        rw [indentRest_newline, lexemes_code (by decide)]
        cases closed : lexemes source with
        | none =>
            rw [closed] at ih
            rw [margin_eq]
            split <;> simp [lexemes_spaces_append, ih]
        | some cut =>
            rw [lexemes_margin_append closed, ih, closed]
            simp [indentLexemes]
      · rw [indentRest_cons newline, lexemes_code noQuote, ih, Option.map_map, Option.map_map]
        congr 1
        funext cut
        simp [indentLexemes, newline]

/-- The lexemes of an indented source text. -/
theorem lexemes_indent {columns : Nat} {source : List Char} {cut : List Lexeme}
    (closed : lexemes source = some cut) :
    lexemes (indent columns source) =
      some (marginLexemes columns cut ++ indentLexemes columns cut) := by
  rw [indent_eq_margin_append, lexemes_margin_append closed, lexemes_indentRest, closed]
  rfl

end BlockForge.Code
