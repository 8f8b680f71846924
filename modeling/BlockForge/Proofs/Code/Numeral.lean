/-
# Numerals and names in source text

A numeral is digits, possibly a fraction, and possibly a power of ten with or without a
sign. A name is letters, digits and underscores behind something that is no digit. Both are
one token of source text, and every number of generated code is a sign and one of them: a
finite number is a numeral, and the others are constants.
-/

import BlockForge.Code.Literal
import BlockForge.Decimal.Notation
import BlockForge.Proofs.Code.Token
import BlockForge.Proofs.Decimal.Shortest
import BlockForge.Proofs.Text.Split

namespace BlockForge.Code

/-- At least one digit, and nothing else. -/
def isDigits (text : List Char) : Bool :=
  !text.isEmpty && text.all Char.isDigit

def isFraction : List Char → Bool
  | [] => true
  | c :: rest => c == '.' && isDigits rest

/-- A text without the sign before it. -/
def unsigned : List Char → List Char
  | [] => []
  | c :: rest => if c == '+' || c == '-' then rest else c :: rest

/-- A mark and digits, possibly with a sign before them, or nothing. -/
def isPower : List Char → Bool
  | [] => true
  | c :: rest => (c == 'e' || c == 'E') && isDigits (unsigned rest)

def isFractionChar (c : Char) : Bool := c == '.' || c.isDigit

/-- Whether a text is a numeral: digits, a fraction and a power of ten. -/
def isNumeral (text : List Char) : Bool :=
  let rest := text.dropWhile Char.isDigit
  isDigits (text.takeWhile Char.isDigit) && isFraction (rest.takeWhile isFractionChar)
    && isPower (rest.dropWhile isFractionChar)

def isName : List Char → Bool
  | [] => false
  | first :: rest => isLabelChar first && !first.isDigit && rest.all isLabelChar

def constants : List (List Char) :=
  ["true".toList, "false".toList, "NaN".toList, "Infinity".toList]

/-- The tokens that are a value by themselves. -/
def isScalar (text : List Char) : Bool := isNumeral text || constants.contains text

theorem isDigits_iff {text : List Char} :
    isDigits text ↔ text ≠ [] ∧ ∀ c ∈ text, c.isDigit := by
  simp [isDigits]

theorem isFraction_nil : isFraction [] := rfl

theorem isPower_nil : isPower [] := rfl

/-! ## Parts of a numeral -/

/-- A power of ten starts with its mark. -/
theorem takeWhile_power {p : Char → Bool} (lower : p 'e' = false) (upper : p 'E' = false)
    {power : List Char} (isPow : isPower power) : power.takeWhile p = [] := by
  cases power with
  | nil => rfl
  | cons c rest =>
      simp only [isPower, Bool.and_eq_true, Bool.or_eq_true, beq_iff_eq] at isPow
      rcases isPow.1 with rfl | rfl
      · rw [List.takeWhile_cons, lower, if_neg Bool.false_ne_true]
      · rw [List.takeWhile_cons, upper, if_neg Bool.false_ne_true]

theorem takeWhile_isDigit_tail {fraction power : List Char} (isFrac : isFraction fraction)
    (isPow : isPower power) : (fraction ++ power).takeWhile Char.isDigit = [] := by
  cases fraction with
  | nil => exact takeWhile_power rfl rfl isPow
  | cons c rest =>
      simp only [isFraction, Bool.and_eq_true, beq_iff_eq] at isFrac
      rw [isFrac.1]
      rfl

theorem isFractionChar_of_mem {fraction : List Char} (isFrac : isFraction fraction) :
    ∀ c ∈ fraction, isFractionChar c := by
  intro c mem
  cases fraction with
  | nil => cases mem
  | cons d rest =>
      simp only [isFraction, Bool.and_eq_true, beq_iff_eq, isDigits_iff] at isFrac
      rcases List.mem_cons.mp mem with rfl | inside
      · simp [isFractionChar, isFrac.1]
      · simp [isFractionChar, isFrac.2.2 c inside]

/-- Digits, a fraction and a power of ten make a numeral. -/
theorem isNumeral_append {whole fraction power : List Char} (digits : isDigits whole)
    (isFrac : isFraction fraction) (isPow : isPower power) :
    isNumeral (whole ++ (fraction ++ power)) := by
  have outer := Text.takeWhile_append_stop (isDigits_iff.mp digits).2
    (takeWhile_isDigit_tail isFrac isPow)
  have inner := Text.takeWhile_append_stop (isFractionChar_of_mem isFrac)
    (@takeWhile_power isFractionChar rfl rfl _ isPow)
  simp [isNumeral, outer, inner, digits, isFrac, isPow]

/-- A numeral is digits, a fraction and a power of ten. -/
theorem exists_parts_of_isNumeral {text : List Char} (numeral : isNumeral text) :
    ∃ whole fraction power, text = whole ++ (fraction ++ power) ∧ isDigits whole ∧
      isFraction fraction ∧ isPower power := by
  simp only [isNumeral, Bool.and_eq_true] at numeral
  obtain ⟨⟨digits, isFrac⟩, isPow⟩ := numeral
  exact ⟨_, _, _, by rw [List.takeWhile_append_dropWhile, List.takeWhile_append_dropWhile],
    digits, isFrac, isPow⟩

/-! ## Numerals and names as tokens -/

/-- A character that goes on with every number. -/
theorem continues_number {first : Char} (digit : first.isDigit) (token : List Char) {c : Char}
    (fits : isLabelChar c || c == '.') : continues (first :: token) c := by
  simp [continues, digit, fits]

theorem isLabelChar_of_isDigit {c : Char} (digit : c.isDigit) : isLabelChar c := by
  simp [isLabelChar, Char.isAlphanum, digit]

theorem not_isGap_of_isLabelChar {c : Char} (label : isLabelChar c) : isGap c = false := by
  rw [Bool.eq_false_iff]
  intro gap
  simp only [isGap, Bool.or_eq_true, beq_iff_eq] at gap
  rcases gap with ((rfl | rfl) | rfl) | rfl <;> exact absurd label (by decide)

/-- A token goes on with every character that fits to its first one. -/
theorem tokensFrom_run {first : Char} {run : List Char}
    (fits : ∀ c ∈ run, ∀ token, continues (first :: token) c) (token : List Char)
    (rest : List Lexeme) :
    tokensFrom (first :: token) (run.map .code ++ rest) =
      tokensFrom (first :: (token ++ run)) rest := by
  induction run generalizing token with
  | nil => rw [List.map_nil, List.nil_append, List.append_nil]
  | cons c run ih =>
      rw [List.map_cons, List.cons_append, tokensFrom,
        if_pos (fits c List.mem_cons_self token), List.cons_append,
        ih fun d mem => fits d (List.mem_cons_of_mem c mem)]
      simp

theorem lexemes_of_no_quote {text : List Char} (noQuote : '\'' ∉ text) :
    lexemes text = some (text.map .code) := by
  induction text with
  | nil => simp
  | cons c rest ih =>
      rw [List.mem_cons, not_or] at noQuote
      rw [lexemes_code (Ne.symm noQuote.1), ih noQuote.2]
      rfl

/-- A token that has begun goes on through a power of ten to the end of the text. -/
theorem tokensFrom_power {first : Char} (digit : first.isDigit) (token : List Char)
    {power : List Char} (isPow : isPower power) :
    tokensFrom (first :: token) (power.map .code) = [.plain (first :: (token ++ power))] := by
  cases power with
  | nil => simp [tokensFrom, finished]
  | cons mark rest =>
      simp only [isPower, Bool.and_eq_true, Bool.or_eq_true, beq_iff_eq] at isPow
      obtain ⟨isMark, digits⟩ := isPow
      have label : isLabelChar mark := by rcases isMark with rfl | rfl <;> rfl
      have fits : ∀ c ∈ unsigned rest, ∀ token, continues (first :: token) c := fun c mem token =>
        continues_number digit token
          (by rw [isLabelChar_of_isDigit ((isDigits_iff.mp digits).2 c mem), Bool.true_or])
      rw [List.map_cons, tokensFrom, if_pos (continues_number digit token (by simp [label]))]
      cases rest with
      | nil => simp [unsigned, isDigits] at digits
      | cons sign rest =>
          by_cases isSign : sign = '+' ∨ sign = '-'
          · have signed : continues (first :: token ++ [mark]) sign := by
              have last : (first :: token ++ [mark]).getLast? = some mark :=
                List.getLast?_concat
              rw [List.cons_append] at last ⊢
              rw [continues, if_pos digit, last]
              rcases isMark with rfl | rfl <;> rcases isSign with rfl | rfl <;> rfl
            have behind : unsigned (sign :: rest) = rest := by
              rcases isSign with rfl | rfl <;> rfl
            rw [behind] at fits
            have run := tokensFrom_run fits (token ++ [mark] ++ [sign]) []
            rw [List.map_cons, tokensFrom, if_pos signed]
            simpa [tokensFrom, finished] using run
          · have behind : unsigned (sign :: rest) = sign :: rest := by
              rw [not_or] at isSign
              simp [unsigned, isSign.1, isSign.2]
            rw [behind] at fits
            have run := tokensFrom_run fits (token ++ [mark]) []
            simpa [tokensFrom, finished] using run

/-- The characters of a numeral are no quotes. -/
theorem no_quote_of_isNumeral {text : List Char} (numeral : isNumeral text) : '\'' ∉ text := by
  obtain ⟨whole, fraction, power, rfl, digits, isFrac, isPow⟩ := exists_parts_of_isNumeral numeral
  have noDigit : ¬ '\''.isDigit := by decide
  intro mem
  rcases List.mem_append.mp mem with inWhole | inTail
  · exact noDigit ((isDigits_iff.mp digits).2 _ inWhole)
  · rcases List.mem_append.mp inTail with inFraction | inPower
    · exact absurd (isFractionChar_of_mem isFrac _ inFraction) (by decide)
    · cases power with
      | nil => cases inPower
      | cons mark rest =>
          simp only [isPower, Bool.and_eq_true, Bool.or_eq_true, beq_iff_eq] at isPow
          obtain ⟨isMark, digits⟩ := isPow
          rcases List.mem_cons.mp inPower with rfl | inRest
          · rcases isMark with isMark | isMark <;> exact absurd isMark (by decide)
          · cases rest with
            | nil => cases inRest
            | cons sign rest =>
                have all := (isDigits_iff.mp digits).2
                rw [unsigned] at all
                split at all
                · rename_i isSign
                  rcases List.mem_cons.mp inRest with rfl | inRest
                  · exact absurd isSign (by decide)
                  · exact noDigit (all _ inRest)
                · exact noDigit (all _ inRest)

/-- A text that a first character begins and the others go on with is one token. -/
theorem tokens?_of_tokensFrom {first : Char} {rest : List Char} (noGap : isGap first = false)
    (noQuote : '\'' ∉ first :: rest)
    (one : tokensFrom [first] (rest.map .code) = [.plain (first :: rest)]) :
    tokens? (first :: rest) = some [.plain (first :: rest)] := by
  rw [tokens?, lexemes_of_no_quote noQuote, Option.map_some, List.map_cons, tokensFrom]
  simp [continues, noGap, finished, one]

theorem tokens?_of_isNumeral {text : List Char} (numeral : isNumeral text) :
    tokens? text = some [.plain text] := by
  have noQuote := no_quote_of_isNumeral numeral
  obtain ⟨whole, fraction, power, rfl, digits, isFrac, isPow⟩ := exists_parts_of_isNumeral numeral
  rw [isDigits_iff] at digits
  cases whole with
  | nil => exact absurd rfl digits.1
  | cons first run =>
      have digit : first.isDigit := digits.2 first List.mem_cons_self
      have fits : ∀ c ∈ run ++ fraction, ∀ token, continues (first :: token) c := by
        intro c mem token
        apply continues_number digit
        rcases List.mem_append.mp mem with inWhole | inFraction
        · rw [isLabelChar_of_isDigit (digits.2 c (List.mem_cons_of_mem _ inWhole)), Bool.true_or]
        · have fractional := isFractionChar_of_mem isFrac c inFraction
          simp only [isFractionChar, Bool.or_eq_true, beq_iff_eq] at fractional
          rcases fractional with rfl | isDigit
          · rfl
          · rw [isLabelChar_of_isDigit isDigit, Bool.true_or]
      apply tokens?_of_tokensFrom (not_isGap_of_isLabelChar (isLabelChar_of_isDigit digit)) noQuote
      have whole : tokensFrom [first] ((run ++ fraction ++ power).map .code) =
          [.plain (first :: (run ++ fraction ++ power))] := by
        rw [List.map_append, tokensFrom_run fits, tokensFrom_power digit _ isPow, List.nil_append]
      rwa [List.append_assoc] at whole

theorem tokens?_of_isName {text : List Char} (name : isName text) :
    tokens? text = some [.plain text] := by
  cases text with
  | nil => cases name
  | cons first rest =>
      simp only [isName, Bool.and_eq_true, Bool.not_eq_true', List.all_eq_true] at name
      obtain ⟨⟨label, noDigit⟩, labels⟩ := name
      have noQuote : '\'' ∉ first :: rest := by
        have unlabeled : ¬ isLabelChar '\'' := by decide
        rintro (_ | ⟨_, mem⟩)
        · exact unlabeled label
        · exact unlabeled (labels _ mem)
      have noVariable : first ≠ '$' := Text.ne_of_kind label rfl
      have fits : ∀ c ∈ rest, ∀ token, continues (first :: token) c := fun c mem token => by
        simp [continues, noDigit, noVariable, label, labels c mem]
      have run := tokensFrom_run fits [] []
      apply tokens?_of_tokensFrom (not_isGap_of_isLabelChar label) noQuote
      simpa [tokensFrom, finished] using run

theorem isName_of_mem_constants : ∀ text ∈ constants, isName text := by
  decide

/-- Numerals and constants are one token. -/
theorem tokens?_of_isScalar {text : List Char} (scalar : isScalar text) :
    tokens? text = some [.plain text] := by
  rcases Bool.or_eq_true_iff.mp scalar with numeral | constant
  · exact tokens?_of_isNumeral numeral
  · exact tokens?_of_isName (isName_of_mem_constants text (List.contains_iff_mem.mp constant))

theorem no_quote_of_isScalar {text : List Char} (scalar : isScalar text) : '\'' ∉ text := by
  have constantsPlain : ∀ text ∈ constants, '\'' ∉ text := by decide
  rcases Bool.or_eq_true_iff.mp scalar with numeral | constant
  · exact no_quote_of_isNumeral numeral
  · exact constantsPlain text (List.contains_iff_mem.mp constant)

/-! ## Numbers of generated code -/

theorem isDigits_natChars (n : Nat) : isDigits (natChars n) :=
  isDigits_iff.mpr ⟨Nat.toDigits_ne_nil,
    fun _ mem => Nat.isDigit_of_mem_toDigits (by decide) (by decide) mem⟩

/-- Digits followed by digits or nothing are digits. -/
theorem isDigits_append {front back : List Char} (digits : isDigits front)
    (more : ∀ c ∈ back, c.isDigit) : isDigits (front ++ back) := by
  rw [isDigits_iff] at digits ⊢
  refine ⟨List.append_ne_nil_of_left_ne_nil digits.1 back, fun c mem => ?_⟩
  rcases List.mem_append.mp mem with inFront | inBack
  · exact digits.2 c inFront
  · exact more c inBack

theorem isDigit_of_mem_zeros {count : Nat} {c : Char} (mem : c ∈ List.replicate count '0') :
    c.isDigit := by
  rw [List.eq_of_mem_replicate mem]
  rfl

/-- Plain notation of digits is a numeral. -/
theorem isNumeral_plain {d : Digits} (digits : isDigits d.digits) : isNumeral (d.plain false) := by
  have all := (isDigits_iff.mp digits).2
  rw [Digits.plain]
  by_cases small : d.point ≤ 0
  · rw [if_pos small]
    have fraction : isFraction ('.' :: (List.replicate (-d.point).toNat '0' ++ d.digits)) := by
      rw [isFraction, beq_self_eq_true, Bool.true_and, isDigits_iff]
      refine ⟨List.append_ne_nil_of_right_ne_nil _ (isDigits_iff.mp digits).1, fun c mem => ?_⟩
      rcases List.mem_append.mp mem with inZeros | inDigits
      · exact isDigit_of_mem_zeros inZeros
      · exact all c inDigits
    have zero : isDigits ['0'] := rfl
    have numeral := isNumeral_append zero fraction isPower_nil
    rwa [List.append_nil] at numeral
  · rw [if_neg small]
    by_cases inside : d.point < d.digits.length
    · rw [if_pos inside]
      have front : isDigits (d.digits.take d.point.toNat) := isDigits_iff.mpr
        ⟨fun empty => by rw [List.take_eq_nil_iff] at empty; grind,
          fun c mem => all c (List.mem_of_mem_take mem)⟩
      have back : isDigits (d.digits.drop d.point.toNat) := isDigits_iff.mpr
        ⟨fun empty => by rw [List.drop_eq_nil_iff] at empty; omega,
          fun c mem => all c (List.mem_of_mem_drop mem)⟩
      have fraction : isFraction ('.' :: d.digits.drop d.point.toNat) := back
      have numeral := isNumeral_append front fraction isPower_nil
      rwa [List.append_nil] at numeral
    · rw [if_neg inside]
      have padded := isDigits_append digits fun c (mem : c ∈ List.replicate
        (d.point.toNat - d.digits.length) '0') => isDigit_of_mem_zeros mem
      exact isNumeral_append padded isFraction_nil isPower_nil

/-- Scientific notation of digits is a numeral. -/
theorem isNumeral_scientific {d : Digits} (digits : isDigits d.digits) :
    isNumeral (d.scientific true) := by
  have nonempty := (isDigits_iff.mp digits).1
  have all := (isDigits_iff.mp digits).2
  have front : isDigits (d.digits.take 1) := isDigits_iff.mpr
    ⟨fun empty => by rw [List.take_eq_nil_iff] at empty; simp_all,
      fun c mem => all c (List.mem_of_mem_take mem)⟩
  have power (sign : List Char) (isSign : sign = ['-'] ∨ sign = ['+']) (n : Nat) :
      isPower ('e' :: sign ++ Nat.toDigits 10 n) := by
    rcases isSign with rfl | rfl
    · exact isDigits_natChars n
    · exact isDigits_natChars n
  have signed : (if d.point - 1 < 0 then ['-'] else if true then ['+'] else []) = ['-'] ∨
      (if d.point - 1 < 0 then ['-'] else if true then ['+'] else []) = ['+'] := by
    split
    · exact .inl rfl
    · exact .inr rfl
  simp only [Digits.scientific, List.append_assoc]
  refine isNumeral_append front ?_ (power _ signed _)
  split
  · rfl
  · rename_i noMore
    have back : isDigits (d.digits.drop 1) := isDigits_iff.mpr
      ⟨fun empty => noMore empty, fun c mem => all c (List.mem_of_mem_drop mem)⟩
    exact back

theorem isNumeral_magnitudeChars {x : Magnitude} (positive : x.isZero = false) :
    isNumeral (magnitudeChars x) := by
  have digits : isDigits (x.shortest .away).digits :=
    isDigits_iff.mpr (Magnitude.shortest_digits positive .away)
  rw [magnitudeChars]
  split
  · exact isNumeral_plain digits
  · exact isNumeral_scientific digits

theorem isNumeral_natChars (n : Nat) : isNumeral (natChars n) := by
  have numeral : isNumeral (natChars n ++ ([] ++ [])) :=
    isNumeral_append (isDigits_natChars n) isFraction_nil isPower_nil
  rwa [List.append_nil, List.append_nil] at numeral

/-- A number is a sign and one token. -/
theorem number_eq_sign_append (x : Binary64) :
    ∃ negative spelled, number x = signChars negative ++ spelled ∧ isScalar spelled := by
  cases x with
  | nan => exact ⟨false, ['N', 'a', 'N'], rfl, rfl⟩
  | infinite negative => exact ⟨negative, _, rfl, rfl⟩
  | finite negative x =>
      by_cases zero : x.isZero
      · exact ⟨false, ['0'], by rw [number, if_pos zero]; rfl, rfl⟩
      · have numeral := isNumeral_magnitudeChars (Bool.eq_false_iff.mpr zero)
        exact ⟨negative, magnitudeChars x, by rw [number, if_neg zero],
          by rw [isScalar, numeral, Bool.true_or]⟩

/-- An integer is a sign and one token. -/
theorem intChars_eq_sign_append (i : Int) :
    ∃ negative spelled, intChars i = signChars negative ++ spelled ∧ isScalar spelled :=
  ⟨i < 0, natChars i.natAbs, rfl, by rw [isScalar, isNumeral_natChars, Bool.true_or]⟩

end BlockForge.Code
