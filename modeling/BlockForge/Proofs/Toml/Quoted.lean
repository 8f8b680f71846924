/-
# Quoted strings read back

A string is written in one of four styles, and a reader that comes to its opening quotes finds the
string again, whatever characters it holds, as long as no quote follows the closing ones. In the
styles with escapes each character is one piece of the text, and the piece is read as the character.
In the styles without, the characters stand for themselves, and the style was chosen because none of
them is in the way.

Over several lines up to two quotes in a row stand unescaped. They are told from the closing quotes
by what follows them, so the quotes that were passed last are part of the induction.
-/

import BlockForge.Proofs.Text.Split
import BlockForge.Toml.Printer

namespace BlockForge.Toml

theorem withChar_some (c : Char) (text rest : List Char) :
    withChar (some c) (some (text, rest)) = some (c :: text, rest) := rfl

/-! ## Escapes -/

theorem shortChar?_upperHex : ∀ code < 128,
    shortChar? (upperHex (code / 4096)) (upperHex (code / 256)) (upperHex (code / 16))
      (upperHex code) = some (Char.ofNat code) := by
  decide

/-- The number of a control character is read as the character. -/
theorem shortChar?_numberEscape {c : Char} (control : isControl c = true) :
    shortChar? (upperHex (c.toNat / 4096)) (upperHex (c.toNat / 256)) (upperHex (c.toNat / 16))
      (upperHex c.toNat) = some c := by
  have small : c.toNat < 128 := by
    simp only [isControl, Bool.or_eq_true, Bool.and_eq_true, decide_eq_true_eq, beq_iff_eq] at control
    omega
  rw [shortChar?_upperHex c.toNat small, Char.ofNat_toNat]

/-- A character that is no control character may stand in a string. -/
theorem isPlainChar_of_not_isControl {c : Char} (printable : isControl c = false)
    (noBreak : c ≠ '\n') : isPlainChar c = true := by
  simp only [isControl, Bool.or_eq_false_iff, Bool.and_eq_false_iff, decide_eq_false_iff_not,
    bne_eq_false_iff_eq, beq_eq_false_iff_ne] at printable
  simp only [isPlainChar, Bool.or_eq_true, Bool.and_eq_true, decide_eq_true_eq, beq_iff_eq,
    bne_iff_ne]
  obtain ⟨(above | rfl) | broken, notDelete⟩ := printable
  · exact .inr ⟨by omega, notDelete⟩
  · exact .inl rfl
  · exact absurd broken noBreak

/-! ## Basic strings -/

theorem basic?_plain {c : Char} (noQuote : c ≠ '"') (noBackslash : c ≠ '\\')
    (plain : isPlainChar c = true) (rest : List Char) :
    basic? (c :: rest) = withChar (some c) (basic? rest) := by
  rw [basic?, if_pos (by simp [noBackslash, plain])]
  all_goals simp [noQuote, noBackslash]

/-- What a character is written as is read as the character. -/
theorem basic?_piece {c : Char} (noQuote : c ≠ '"') (rest : List Char) :
    basic? (basicChar .basic c ++ rest) = withChar (some c) (basic? rest) := by
  unfold basicChar
  split
  case h_7 _ _ _ _ noBackslash noBreak =>
    split
    · rename_i control
      simp only [numberEscape, List.cons_append, List.nil_append, basic?,
        shortChar?_numberEscape control]
    · rename_i printable
      exact basic?_plain noQuote noBackslash
        (isPlainChar_of_not_isControl (by simpa using printable) noBreak) rest
  all_goals rfl

/-- On one line every quote is escaped. -/
theorem basicChars_basic_quote (row : Nat) (text : List Char) :
    basicChars .basic row ('"' :: text) = '\\' :: '"' :: basicChars .basic 0 text := by
  rw [basicChars, if_neg (by simp [Quoting.quotesInRow])]

theorem basicChars_cons {c : Char} (noQuote : c ≠ '"') (quoting : Quoting) (row : Nat)
    (text : List Char) :
    basicChars quoting row (c :: text) = basicChar quoting c ++ basicChars quoting 0 text := by
  rw [basicChars]
  exact noQuote

/-- A basic string is read from after its opening quote on. -/
theorem basic?_basicChars (row : Nat) (text rest : List Char) :
    basic? (basicChars .basic row text ++ '"' :: rest) = some (text, rest) := by
  induction text generalizing row with
  | nil => rfl
  | cons c text ih =>
      by_cases quote : c = '"'
      · subst quote
        rw [basicChars_basic_quote]
        show withChar (some '"') (basic? (basicChars .basic 0 text ++ '"' :: rest)) = _
        rw [ih 0, withChar_some]
      · rw [basicChars_cons quote, List.append_assoc, basic?_piece quote, ih 0, withChar_some]

/-! ## Literal strings -/

theorem literal?_plain {c : Char} (noQuote : c ≠ '\'') (plain : isPlainChar c = true)
    (rest : List Char) : literal? (c :: rest) = withChar (some c) (literal? rest) := by
  rw [literal?, if_pos plain]
  exact noQuote

/-- A literal string is read from after its opening quote on, if no character is in the way. -/
theorem literal?_append {text : List Char}
    (shows : ∀ c ∈ text, isControl c = false ∧ c ≠ '\'' ∧ c ≠ '\n') (rest : List Char) :
    literal? (text ++ '\'' :: rest) = some (text, rest) := by
  induction text with
  | nil => rfl
  | cons c text ih =>
      obtain ⟨printable, noQuote, noBreak⟩ := shows c List.mem_cons_self
      rw [List.cons_append, literal?_plain noQuote (isPlainChar_of_not_isControl printable noBreak),
        ih fun d held => shows d (List.mem_cons_of_mem c held), withChar_some]

/-! ## Quotes in a row -/

/-- Past three quotes, up to two quotes before them belong to the string. -/
theorem closing_replicate {quote : Char} {row : Nat} (few : row ≤ 2) {rest : List Char}
    (ends : rest.head? ≠ some quote) :
    closing quote (List.replicate row quote ++ rest) = (List.replicate row quote, rest) := by
  have other : ∀ c after, rest = c :: after → c ≠ quote := by
    rintro c after rfl rfl
    exact ends rfl
  obtain rfl | rfl | rfl : row = 0 ∨ row = 1 ∨ row = 2 := by omega
  · rcases rest with - | ⟨a, - | ⟨b, after⟩⟩
    · rfl
    · simp [closing, other a [] rfl]
    · simp [closing, other a (b :: after) rfl]
  · rcases rest with - | ⟨a, after⟩
    · simp [closing]
    · simp [closing, other a after rfl]
  · simp [closing]

theorem replicate_append_closing (quote : Char) (row : Nat) (rest : List Char) :
    List.replicate row quote ++ quote :: quote :: quote :: rest =
      quote :: quote :: quote :: (List.replicate row quote ++ rest) := by
  rw [show quote :: quote :: quote :: rest = List.replicate 3 quote ++ rest from rfl,
    ← List.append_assoc, List.replicate_append_replicate, Nat.add_comm,
    ← List.replicate_append_replicate, List.append_assoc]
  rfl

/-- A reader that takes single quotes for characters takes up to two of them before another
character for as many. -/
theorem read_quotes {read : List Char → Option (List Char × List Char)} {quote : Char}
    (single : ∀ more, (∀ tail, more ≠ quote :: quote :: tail) →
      read (quote :: more) = withChar (some quote) (read more))
    {row : Nat} (few : row ≤ 2) {d : Char} (other : d ≠ quote) {rest text after : List Char}
    (found : read (d :: rest) = some (text, after)) :
    read (List.replicate row quote ++ d :: rest) =
      some (List.replicate row quote ++ text, after) := by
  have last : read (quote :: d :: rest) = some (quote :: text, after) := by
    rw [single _ (by simp [other]), found, withChar_some]
  obtain rfl | rfl | rfl : row = 0 ∨ row = 1 ∨ row = 2 := by omega
  · exact found
  · exact last
  · show read (quote :: quote :: d :: rest) = _
    rw [single _ (by simp [other]), last]
    rfl

/-! ## Basic strings over several lines -/

theorem basicLines?_plain {c : Char} (noQuote : c ≠ '"') (noBackslash : c ≠ '\\')
    (noReturn : c ≠ '\r') (plain : c = '\n' ∨ isPlainChar c = true) (rest : List Char) :
    basicLines? .off (c :: rest) = withChar (some c) (basicLines? .off rest) := by
  rw [basicLines?, if_pos (by simp [noBackslash, plain])]
  all_goals simp [noQuote, noBackslash, noReturn]

/-- What a character is written as is read as the character over several lines, too. -/
theorem basicLines?_piece {c : Char} (noQuote : c ≠ '"') (rest : List Char) :
    basicLines? .off (basicChar .basicLines c ++ rest) =
      withChar (some c) (basicLines? .off rest) := by
  unfold basicChar
  split
  case h_6 =>
    exact basicLines?_plain (by decide) (by decide) (by decide) (.inl rfl) rest
  case h_7 _ _ _ noReturn noBackslash noBreak =>
    split
    · rename_i control
      simp only [numberEscape, List.cons_append, List.nil_append, basicLines?,
        shortChar?_numberEscape control]
    · rename_i printable
      exact basicLines?_plain noQuote noBackslash noReturn
        (.inr (isPlainChar_of_not_isControl (by simpa using printable) noBreak)) rest
  all_goals rfl

theorem basicLines?_quote (more : List Char) (single : ∀ tail, more ≠ '"' :: '"' :: tail) :
    basicLines? .off ('"' :: more) = withChar (some '"') (basicLines? .off more) := by
  rw [basicLines?, if_pos (by decide)]
  all_goals simp_all

/-- What a character other than a quote is written as does not start with a quote. -/
theorem exists_basicChar_eq {c : Char} (noQuote : c ≠ '"') (quoting : Quoting) :
    ∃ d more, basicChar quoting c = d :: more ∧ d ≠ '"' := by
  unfold basicChar
  split
  case h_6 => cases quoting <;> exact ⟨_, _, rfl, by decide⟩
  case h_7 =>
    split
    · exact ⟨_, _, rfl, by decide⟩
    · exact ⟨c, [], rfl, noQuote⟩
  all_goals exact ⟨_, _, rfl, by decide⟩

/-- A basic string over several lines is read from after its opening quotes on. The quotes that
were passed last are counted as the writer counts them. -/
theorem basicLines?_basicChars {row : Nat} (few : row ≤ 2) (text : List Char) {rest : List Char}
    (ends : rest.head? ≠ some '"') :
    basicLines? .off (List.replicate row '"' ++
        (basicChars .basicLines row text ++ '"' :: '"' :: '"' :: rest)) =
      some (List.replicate row '"' ++ text, rest) := by
  induction text generalizing row with
  | nil =>
      show basicLines? .off (List.replicate row '"' ++ '"' :: '"' :: '"' :: rest) = _
      rw [replicate_append_closing, basicLines?, closing_replicate few ends, List.append_nil]
      all_goals simp
  | cons c text ih =>
      have passed : basicLines? .off
          (basicChars .basicLines 0 text ++ '"' :: '"' :: '"' :: rest) = some (text, rest) :=
        ih (Nat.zero_le 2)
      by_cases quote : c = '"'
      · subst quote
        rw [basicChars]
        split
        · rename_i more
          have shifted := @ih (row + 1) more
          rw [List.replicate_succ', List.append_assoc, List.append_assoc] at shifted
          exact shifted
        · apply read_quotes basicLines?_quote few (by decide)
          show withChar (some '"') (basicLines? .off (basicChars .basicLines 0 text ++ _)) = _
          rw [passed, withChar_some]
      · have read := basicLines?_piece quote
          (basicChars .basicLines 0 text ++ '"' :: '"' :: '"' :: rest)
        rw [passed, withChar_some] at read
        obtain ⟨d, more, piece, other⟩ := exists_basicChar_eq quote .basicLines
        rw [basicChars_cons quote, List.append_assoc, piece, List.cons_append]
        rw [piece, List.cons_append] at read
        exact read_quotes basicLines?_quote few other read

/-! ## Literal strings over several lines -/

theorem literalLines?_plain {c : Char} (noQuote : c ≠ '\'') (noReturn : c ≠ '\r')
    (plain : c = '\n' ∨ isPlainChar c = true) (rest : List Char) :
    literalLines? (c :: rest) = withChar (some c) (literalLines? rest) := by
  rw [literalLines?, if_pos (by simp [plain])]
  all_goals simp [noQuote, noReturn]

theorem literalLines?_quote (more : List Char) (single : ∀ tail, more ≠ '\'' :: '\'' :: tail) :
    literalLines? ('\'' :: more) = withChar (some '\'') (literalLines? more) := by
  rw [literalLines?, if_pos (by decide)]
  all_goals simp_all

theorem le_longestRow (mark : Char) (row : Nat) (text : List Char) :
    row ≤ longestRow mark row text := by
  induction text generalizing row with
  | nil => exact Nat.le_refl row
  | cons c text ih =>
      rw [longestRow]
      split
      · exact Nat.le_of_succ_le (ih (row + 1))
      · exact Nat.le_max_left row _

/-- A literal string over several lines is read from after its opening quotes on, if no row of
quotes in it is taken for the closing ones. -/
theorem literalLines?_append {row : Nat} {text : List Char}
    (printable : ∀ c ∈ text, isControl c = false) (few : longestRow '\'' row text ≤ 2)
    {rest : List Char} (ends : rest.head? ≠ some '\'') :
    literalLines? (List.replicate row '\'' ++ (text ++ '\'' :: '\'' :: '\'' :: rest)) =
      some (List.replicate row '\'' ++ text, rest) := by
  induction text generalizing row with
  | nil =>
      rw [longestRow] at few
      rw [List.nil_append, replicate_append_closing, literalLines?, closing_replicate few ends,
        List.append_nil]
  | cons c text ih =>
      have others : ∀ d ∈ text, isControl d = false := fun d held =>
        printable d (List.mem_cons_of_mem c held)
      have shown := printable c List.mem_cons_self
      have inRow := Nat.le_trans (le_longestRow '\'' row (c :: text)) few
      rw [longestRow] at few
      split at few
      · rename_i quote
        have shifted := ih others few
        rw [List.replicate_succ', List.append_assoc, List.append_assoc] at shifted
        rw [quote]
        exact shifted
      · rename_i noQuote
        have passed : literalLines? (text ++ '\'' :: '\'' :: '\'' :: rest) = some (text, rest) :=
          ih others (Nat.le_trans (Nat.le_max_right _ _) few)
        have noReturn : c ≠ '\r' := by
          rintro rfl
          exact absurd shown (by decide)
        have plain : c = '\n' ∨ isPlainChar c = true :=
          Classical.or_iff_not_imp_left.mpr (isPlainChar_of_not_isControl shown)
        apply read_quotes literalLines?_quote inRow noQuote
        show literalLines? (c :: (text ++ '\'' :: '\'' :: '\'' :: rest)) = _
        rw [literalLines?_plain noQuote noReturn plain, passed, withChar_some]

/-! ## Strings of any style -/

theorem pastBreak_cons {c : Char} (noBreak : c ≠ '\n') (noReturn : c ≠ '\r') (rest : List Char) :
    pastBreak (c :: rest) = c :: rest := by
  rw [pastBreak]
  all_goals simp [noBreak, noReturn]

/-- A text over several lines starts with a line break of its own only behind another one, which
is passed over. -/
theorem pastBreak_opening {text body : List Char} (noReturn : '\r' ∉ body)
    (breaks : '\n' ∈ body → '\n' ∈ text) {quote : Char} (noBreak : quote ≠ '\n' ∧ quote ≠ '\r')
    (rest : List Char) :
    pastBreak ((if text.contains '\n' then ['\n'] else []) ++ (body ++ quote :: rest)) =
      body ++ quote :: rest := by
  split
  · rfl
  · rename_i without
    have unbroken : '\n' ∉ body := fun held => without (by simpa using breaks held)
    cases body with
    | nil => exact pastBreak_cons noBreak.1 noBreak.2 rest
    | cons c body =>
        apply pastBreak_cons
        · rintro rfl
          exact unbroken List.mem_cons_self
        · rintro rfl
          exact noReturn List.mem_cons_self

theorem upperHex_ne (n : Nat) : upperHex n ≠ '\r' ∧ upperHex n ≠ '\n' := by
  have digit : ∀ d < 16, (Nat.digitChar d).toUpper ≠ '\r' ∧ (Nat.digitChar d).toUpper ≠ '\n' := by
    decide
  exact digit (n % 16) (Nat.mod_lt n (by decide))

theorem mem_basicChar {c : Char} :
    '\r' ∉ basicChar .basicLines c ∧ ('\n' ∈ basicChar .basicLines c → c = '\n') := by
  unfold basicChar
  split
  case h_6 => exact ⟨by decide, fun _ => rfl⟩
  case h_7 _ _ _ noReturn _ _ =>
    split
    · simp [numberEscape, (upperHex_ne _).1.symm, (upperHex_ne _).2.symm]
    · exact ⟨by simpa using Ne.symm noReturn, fun held => (List.mem_singleton.mp held).symm⟩
  all_goals exact ⟨by decide, by decide⟩

/-- No line return stands in a basic string, and every line break in it is one of its text. -/
theorem mem_basicChars {row : Nat} {text : List Char} :
    '\r' ∉ basicChars .basicLines row text ∧
      ('\n' ∈ basicChars .basicLines row text → '\n' ∈ text) := by
  induction text generalizing row with
  | nil => exact ⟨List.not_mem_nil, id⟩
  | cons c text ih =>
      by_cases quote : c = '"'
      · subst quote
        rw [basicChars]
        split
        · simpa using @ih (row + 1)
        · simpa using @ih 0
      · rw [basicChars_cons quote]
        obtain ⟨noReturn, breaks⟩ := @mem_basicChar c
        obtain ⟨others, inText⟩ := @ih 0
        simp only [List.mem_append, List.mem_cons, not_or]
        exact ⟨⟨noReturn, others⟩, Or.imp (fun held => (breaks held).symm) inText⟩

theorem showsPlainly_quotingOf {text : List Char} {quoting : Quoting}
    (style : quotingOf text = quoting) (unescaped : quoting = .literal ∨ quoting = .literalLines) :
    showsPlainly text quoting = true := by
  rw [quotingOf] at style
  split at style
  · rename_i found
    rw [← style]
    exact List.find?_some found
  · split at style <;> subst style <;> simp at unescaped

theorem shows_literal {text : List Char} (style : quotingOf text = .literal) :
    ∀ c ∈ text, isControl c = false ∧ c ≠ '\'' ∧ c ≠ '\n' := by
  have plain := showsPlainly_quotingOf style (.inl rfl)
  simp only [showsPlainly, Bool.and_eq_true, Bool.not_eq_true', List.any_eq_false] at plain
  obtain ⟨⟨printable, noQuote⟩, noBreak⟩ := plain
  intro c held
  refine ⟨by simpa using printable c held, ?_, ?_⟩
  · rintro rfl
    simp [held] at noQuote
  · rintro rfl
    simp [held] at noBreak

theorem shows_literalLines {text : List Char} (style : quotingOf text = .literalLines) :
    (∀ c ∈ text, isControl c = false) ∧ longestRow '\'' 0 text ≤ 2 := by
  have plain := showsPlainly_quotingOf style (.inr rfl)
  simp only [showsPlainly, Bool.and_eq_true, Bool.not_eq_true', List.any_eq_false,
    decide_eq_true_eq] at plain
  exact ⟨fun c held => by simpa using plain.1 c held, plain.2⟩

theorem quoted?_basic {text : List Char} (single : ∀ tail, text ≠ '"' :: '"' :: tail) :
    quoted? ('"' :: text) = basic? text := by
  rw [quoted?]
  exact single

theorem quoted?_literal {text : List Char} (single : ∀ tail, text ≠ '\'' :: '\'' :: tail) :
    quoted? ('\'' :: text) = literal? text := by
  rw [quoted?]
  exact single

/-- A basic string that is empty has one quote after it, and no other one starts with a quote. -/
theorem basicChars_append_ne (text : List Char) {rest : List Char} (ends : rest.head? ≠ some '"')
    (tail : List Char) : basicChars .basic 0 text ++ '"' :: rest ≠ '"' :: '"' :: tail := by
  cases text with
  | nil =>
      intro same
      rw [(List.cons.inj same).2] at ends
      exact ends rfl
  | cons c text =>
      by_cases quote : c = '"'
      · subst quote
        simp [basicChars_basic_quote]
      · obtain ⟨d, more, piece, other⟩ := exists_basicChar_eq quote .basic
        rw [basicChars_cons quote, piece]
        simp [other]

/-- A string is read back from what it is written as, if no quote follows it. -/
theorem quoted?_stringChars (text : List Char) {rest : List Char} (noBasic : rest.head? ≠ some '"')
    (noLiteral : rest.head? ≠ some '\'') :
    quoted? (stringChars text ++ rest) = some (text, rest) := by
  cases style : quotingOf text with
  | basic =>
      have chars : stringChars text ++ rest = '"' :: (basicChars .basic 0 text ++ '"' :: rest) := by
        simp [stringChars, style, Quoting.quotes, Quoting.isOverLines]
      rw [chars, quoted?_basic (basicChars_append_ne text noBasic)]
      exact basic?_basicChars 0 text rest
  | literal =>
      have chars : stringChars text ++ rest = '\'' :: (text ++ '\'' :: rest) := by
        simp [stringChars, style, Quoting.quotes, Quoting.isOverLines]
      have shows := shows_literal style
      have single : ∀ tail, text ++ '\'' :: rest ≠ '\'' :: '\'' :: tail := by
        intro tail same
        cases text with
        | nil =>
            rw [(List.cons.inj same).2] at noLiteral
            exact noLiteral rfl
        | cons c text => exact (shows c List.mem_cons_self).2.1 (List.cons.inj same).1
      rw [chars, quoted?_literal single]
      exact literal?_append shows rest
  | basicLines =>
      have chars : stringChars text ++ rest = '"' :: '"' :: '"' ::
          ((if text.contains '\n' then ['\n'] else []) ++
            (basicChars .basicLines 0 text ++ '"' :: '"' :: '"' :: rest)) := by
        simp [stringChars, style, Quoting.quotes, Quoting.isOverLines]
      obtain ⟨noReturn, breaks⟩ := @mem_basicChars 0 text
      rw [chars, quoted?, pastBreak_opening noReturn breaks (by decide)]
      exact basicLines?_basicChars (Nat.zero_le 2) text noBasic
  | literalLines =>
      have chars : stringChars text ++ rest = '\'' :: '\'' :: '\'' ::
          ((if text.contains '\n' then ['\n'] else []) ++
            (text ++ '\'' :: '\'' :: '\'' :: rest)) := by
        simp [stringChars, style, Quoting.quotes, Quoting.isOverLines]
      obtain ⟨printable, few⟩ := shows_literalLines style
      have noReturn : '\r' ∉ text := fun held => absurd (printable _ held) (by decide)
      rw [chars, quoted?, pastBreak_opening noReturn id (by decide)]
      exact literalLines?_append printable few noLiteral

/-! ## Keys -/

/-- A key is written bare only if it has a character, and has no others. -/
theorem exists_cons_of_bare {key : String}
    (bare : (!key.isEmpty && key.toList.all isBareChar) = true) :
    ∃ c rest, key.toList = c :: rest ∧ ∀ d ∈ c :: rest, isBareChar d = true := by
  rw [Bool.and_eq_true, List.all_eq_true] at bare
  obtain ⟨c, rest, chars⟩ : ∃ c rest, key.toList = c :: rest := by
    apply List.exists_cons_of_ne_nil
    simpa using bare.1
  rw [chars] at bare
  exact ⟨c, rest, chars, bare.2⟩

/-- A key is read back from what it is written as, if no character follows it that a bare key might
hold. -/
theorem key?_keyChars (key : String) {rest : List Char}
    (ends : ∀ c ∈ rest.head?, isBareChar c = false) :
    key? (keyChars key ++ rest) = some (key, rest) := by
  rw [keyChars]
  split
  · rename_i bare
    obtain ⟨c, chars, first, bare⟩ := exists_cons_of_bare bare
    obtain ⟨taken, left⟩ := Text.takeWhile_append_head bare ends
    rw [first]
    have noBasic : c ≠ '"' := Text.ne_of_kind (bare c List.mem_cons_self) rfl
    have noLiteral : c ≠ '\'' := Text.ne_of_kind (bare c List.mem_cons_self) rfl
    rw [List.cons_append] at taken left ⊢
    rw [key?, taken, left, ← first]
    · rw [first, List.isEmpty_cons, ← first, String.ofList_toList]
      rfl
    · simp [noBasic]
    · simp [noLiteral]
  · show (basic? (basicChars .basic 0 key.toList ++ ['"'] ++ rest)).map _ = _
    rw [List.append_assoc, List.singleton_append, basic?_basicChars]
    simp only [Option.map_some, String.ofList_toList]

end BlockForge.Toml
