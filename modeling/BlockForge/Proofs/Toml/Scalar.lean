/-
# Unquoted scalars read back

Numbers and truth values stand unquoted. The reader cuts such a text off where the value ends and
recognizes its kind from the whole of it, so that one kind has to be told from those that are tried
before: a text that holds a digit is no word, and one that holds a point is no integer. A double is
written in full, and its digits are rounded once, so it is the same double that is read.
-/

import BlockForge.Proofs.Decimal.Nearest
import BlockForge.Proofs.Json.Numeral
import BlockForge.Proofs.Toml.Quoted
import Mathlib.Data.Bool.AllAny

namespace BlockForge.Toml

open BlockForge.Json (AllDigits WellStarted)

/-! ## Rows of digits -/

theorem ungrouped?_eq {isDigit : Char → Bool} (noMark : isDigit '_' = false) {digits : List Char}
    (nonempty : digits ≠ []) (all : ∀ c ∈ digits, isDigit c = true) :
    ungrouped? isDigit digits = some digits := by
  induction digits with
  | nil => exact absurd rfl nonempty
  | cons c rest ih =>
      have first := all c List.mem_cons_self
      cases rest with
      | nil => rw [ungrouped?, if_pos first]
      | cons d rest =>
          have second : d ≠ '_' := by
            rintro rfl
            rw [all '_' (List.mem_cons_of_mem c List.mem_cons_self)] at noMark
            cases noMark
          rw [ungrouped?, if_pos first, ih (List.cons_ne_nil d rest) fun e held =>
            all e (List.mem_cons_of_mem c held), Option.map_some]
          simp [second]

/-- A row that holds another character is no row of digits. -/
theorem ungrouped?_eq_none {isDigit : Char → Bool} {text : List Char} {c : Char} (held : c ∈ text)
    (other : isDigit c = false) (noMark : c ≠ '_') : ungrouped? isDigit text = none := by
  fun_induction ungrouped? isDigit text <;> simp_all <;> grind

theorem decimalDigits?_eq {digits : List Char} (all : AllDigits digits)
    (started : WellStarted digits) : decimalDigits? digits = some digits := by
  obtain ⟨c, rest, rfl, alone⟩ := started
  rw [decimalDigits?, ungrouped?_eq (by decide) (List.cons_ne_nil c rest) all]
  by_cases zero : c = '0'
  · simp [zero, alone zero]
  · simp [zero]

theorem decimalDigits?_eq_none {text : List Char} {c : Char} (held : c ∈ text)
    (other : c.isDigit = false) (noMark : c ≠ '_') : decimalDigits? text = none := by
  rw [decimalDigits?, ungrouped?_eq_none held other noMark]

theorem digit_ne_sign {c : Char} (digit : c.isDigit = true) : c ≠ '-' ∧ c ≠ '+' :=
  ⟨Text.ne_of_kind digit rfl, Text.ne_of_kind digit rfl⟩

/-- The sign of a number is found before its digits. -/
theorem splitSign_signChars (negative : Bool) {text : List Char}
    (digit : ∀ c ∈ text.head?, c.isDigit = true) :
    splitSign (signChars negative ++ text) = (if negative then some true else none, text) := by
  cases negative with
  | true => rfl
  | false =>
      cases text with
      | nil => rfl
      | cons c rest =>
          obtain ⟨noMinus, noPlus⟩ := digit_ne_sign (digit c rfl)
          show splitSign (c :: rest) = _
          rw [splitSign]
          · rfl
          · simp [noMinus]
          · simp [noPlus]

/-- No word for a value holds a digit. -/
theorem word?_eq_none {text : List Char} {c : Char} (held : c ∈ text) (digit : c.isDigit = true) :
    word? text = none := by
  have other (word : String) (noDigit : word.toList.all (!·.isDigit) = true) :
      String.ofList text ≠ word := by
    rintro rfl
    rw [String.toList_ofList, List.all_eq_true] at noDigit
    simpa [digit] using noDigit c held
  unfold word?
  split
  all_goals first
    | rfl
    | (rename_i same; exact absurd same (other _ (by decide)))

/-! ## Integers -/

/-- Without the letter of another base a text is read in decimal. -/
theorem integer?_decimal {text : List Char}
    (noBase : ∀ c rest, text = '0' :: c :: rest → c ≠ 'x' ∧ c ≠ 'o' ∧ c ≠ 'b') :
    integer? text = (decimalDigits? (splitSign text).2).map fun digits =>
      .integer (if (splitSign text).1 = some true then -(digitsValue digits : Int)
        else digitsValue digits) := by
  unfold integer?
  split
  · exact absurd rfl (noBase _ _ rfl).1
  · exact absurd rfl (noBase _ _ rfl).2.1
  · exact absurd rfl (noBase _ _ rfl).2.2
  · rfl

/-- Digits that start well are followed by no letter of another base. -/
theorem noBase_of_wellStarted (negative : Bool) {digits : List Char} (started : WellStarted digits)
    {after : List Char} (ends : ∀ c ∈ after.head?, c ≠ 'x' ∧ c ≠ 'o' ∧ c ≠ 'b') (c : Char)
    (rest : List Char) (same : signChars negative ++ (digits ++ after) = '0' :: c :: rest) :
    c ≠ 'x' ∧ c ≠ 'o' ∧ c ≠ 'b' := by
  cases negative with
  | true => exact absurd (List.cons.inj same).1 (by decide)
  | false =>
      obtain ⟨d, more, rfl, alone⟩ := started
      have parts : d :: (more ++ after) = '0' :: c :: rest := same
      obtain ⟨first, others⟩ := List.cons.inj parts
      rw [alone first, List.nil_append] at others
      exact ends c (by rw [others, List.head?_cons, Option.mem_some])

theorem integer?_intChars (i : Int) : integer? (intChars i) = some (.integer i) := by
  have all := Json.allDigits_natChars i.natAbs
  have started := Json.wellStarted_natChars i.natAbs
  have value : digitsValue (natChars i.natAbs) = i.natAbs := digitsValue_toDigits i.natAbs
  have noBase := @noBase_of_wellStarted (decide (i < 0)) _ started [] (by simp)
  rw [List.append_nil] at noBase
  rw [intChars, integer?_decimal noBase]
  rw [splitSign_signChars _ fun c head => all c (List.mem_of_mem_head? head),
    decimalDigits?_eq all started, Option.map_some, value]
  congr 2
  by_cases negative : i < 0
  · rw [decide_eq_true negative, if_pos rfl, if_pos rfl]
    omega
  · rw [decide_eq_false negative, if_neg Bool.false_ne_true, if_neg (by simp)]
    omega

/-! ## Floats -/

/-- Digits on both sides of a point are read as the magnitude nearest to what they denote. -/
theorem float?_point (negative : Bool) {whole fraction : List Char} (wholeAll : AllDigits whole)
    (started : WellStarted whole) (fractionAll : AllDigits fraction) (nonempty : fraction ≠ [])
    {x : Magnitude}
    (value : Magnitude.ofDecimal? (digitsValue (whole ++ fraction)) (-(fraction.length : Int)) =
      some x) :
    float? (signChars negative ++ (whole ++ '.' :: fraction)) =
      some (.float (.finite negative x)) := by
  have unmarked : ∀ c ∈ whole ++ '.' :: fraction, (!(c == 'e' || c == 'E')) = true := by
    have digit (d : Char) (isDigit : d.isDigit = true) : (!(d == 'e' || d == 'E')) = true := by
      simp only [Bool.not_eq_true', Bool.or_eq_false_iff, beq_eq_false_iff_ne]
      constructor <;> rintro rfl <;> exact absurd isDigit (by decide)
    intro c held
    rcases List.mem_append.mp held with left | right
    · exact digit c (wholeAll c left)
    · rcases List.mem_cons.mp right with rfl | last
      · decide
      · exact digit c (fractionAll c last)
  have noPower := @Text.takeWhile_append_head _ _ [] unmarked (by simp)
  have noPoint : ∀ c ∈ whole, (c != '.') = true := by
    intro c held
    rw [bne_iff_ne]
    rintro rfl
    exact absurd (wholeAll '.' held) (by decide)
  have point := @Text.takeWhile_append_head _ _ ('.' :: fraction) noPoint (by simp)
  rw [List.append_nil] at noPower
  have head : ∀ c ∈ (whole ++ '.' :: fraction).head?, c.isDigit = true := by
    obtain ⟨c, rest, rfl, -⟩ := started
    rintro d ⟨⟩
    exact wholeAll c List.mem_cons_self
  simp only [float?, splitSign_signChars negative head, noPower, point, decimalDigits?_eq wholeAll
    started, ungrouped?_eq (by decide : Char.isDigit '_' = false) nonempty fractionAll]
  simp only [Option.bind_eq_bind, Option.bind_some, Option.getD_none, Int.zero_sub, value]
  cases negative <;> rfl

/-- A text with a point is no integer. -/
theorem integer?_point (negative : Bool) {whole : List Char} (wholeAll : AllDigits whole)
    (started : WellStarted whole) (fraction : List Char) :
    integer? (signChars negative ++ (whole ++ '.' :: fraction)) = none := by
  have head : ∀ c ∈ (whole ++ '.' :: fraction).head?, c.isDigit = true := by
    obtain ⟨c, rest, rfl, -⟩ := started
    rintro d ⟨⟩
    exact wholeAll c List.mem_cons_self
  have noBase := @noBase_of_wellStarted negative _ started ('.' :: fraction) (by simp)
  have held : '.' ∈ whole ++ '.' :: fraction := List.mem_append_right whole List.mem_cons_self
  rw [integer?_decimal noBase, splitSign_signChars negative head,
    decimalDigits?_eq_none held (by decide) (by decide), Option.map_none]

/-! ## Scalars of each kind -/

/-- A text that is unquoted as a whole and does not look like a quoted string. -/
def Unquoted (text : List Char) : Prop :=
  text ≠ [] ∧ ∀ c ∈ text, endsScalar c = false ∧ c ≠ '"' ∧ c ≠ '\''

theorem unquoted_of_digits {text : List Char} (nonempty : text ≠ [])
    (all : ∀ c ∈ text, c.isDigit = true ∨ c = '-' ∨ c = '.') : Unquoted text := by
  refine ⟨nonempty, fun c held => ?_⟩
  rcases all c held with digit | rfl | rfl
  · refine ⟨?_, Text.ne_of_kind digit rfl, Text.ne_of_kind digit rfl⟩
    simp only [endsScalar, Bool.or_eq_false_iff, beq_eq_false_iff_ne]
    refine ⟨⟨⟨⟨⟨⟨⟨⟨⟨⟨?_, ?_⟩, ?_⟩, ?_⟩, ?_⟩, ?_⟩, ?_⟩, ?_⟩, ?_⟩, ?_⟩, ?_⟩ <;>
      exact Text.ne_of_kind digit rfl
  · decide
  · decide

theorem mem_signChars {negative : Bool} {c : Char} (held : c ∈ signChars negative) : c = '-' := by
  cases negative with
  | true => exact List.mem_singleton.mp held
  | false => exact absurd held List.not_mem_nil

theorem scalar?_intChars (i : Int) :
    scalar? (intChars i) = some (.integer i) ∧ Unquoted (intChars i) := by
  have all := Json.allDigits_natChars i.natAbs
  obtain ⟨c, rest, digits, -⟩ := Json.wellStarted_natChars i.natAbs
  have held : c ∈ natChars i.natAbs := by
    rw [digits]
    exact List.mem_cons_self
  constructor
  · have inText : c ∈ intChars i := List.mem_append_right _ held
    rw [scalar?, word?_eq_none inText (all c held), integer?_intChars]
    rfl
  · apply unquoted_of_digits
    · simp [intChars, digits]
    · intro d inText
      rcases List.mem_append.mp inText with sign | digit
      · exact .inr (.inl (mem_signChars sign))
      · exact .inl (all d digit)

/-- A finite double is read from what it is written as. -/
theorem scalar?_finite (negative : Bool) (x : Magnitude) :
    scalar? (floatFormat.write (.finite negative x)) = some (.float (.finite negative x)) ∧
      Unquoted (floatFormat.write (.finite negative x)) := by
  have writable := Json.writable_shortest x floatFormat.tie
  obtain ⟨whole, fraction, zeros, parts⟩ := writable.exists_plainParts
  have nearest := x.ofDecimal?_shortest parts.placed
  rw [← parts.value] at nearest
  have text : floatFormat.write (.finite negative x) =
      signChars negative ++ (whole ++ '.' :: fraction) := by
    rw [← parts.chars]
    cases negative <;> rfl
  rw [text]
  constructor
  · obtain ⟨c, rest, digits, -⟩ := parts.started
    have held : c ∈ whole := by
      rw [digits]
      exact List.mem_cons_self
    rw [scalar?, word?_eq_none (List.mem_append_right _ (List.mem_append_left _ held))
      (parts.wholeAll c held), integer?_point negative parts.wholeAll parts.started,
      float?_point negative parts.wholeAll parts.started parts.fractionAll parts.nonempty nearest]
    rfl
  · apply unquoted_of_digits
    · simp
    · intro c held
      rcases List.mem_append.mp held with sign | unsigned
      · exact .inr (.inl (mem_signChars sign))
      rcases List.mem_append.mp unsigned with left | right
      · exact .inl (parts.wholeAll c left)
      rcases List.mem_cons.mp right with rfl | last
      · exact .inr (.inr rfl)
      · exact .inl (parts.fractionAll c last)

theorem scalar?_float (x : Binary64) :
    scalar? (floatFormat.write x) = some (.float x) ∧ Unquoted (floatFormat.write x) := by
  cases x with
  | finite negative x => exact scalar?_finite negative x
  | infinite negative =>
    cases negative <;> exact ⟨rfl, by decide, List.all_iff_forall_prop.mp (by decide)⟩
  | nan => exact ⟨rfl, by decide, List.all_iff_forall_prop.mp (by decide)⟩

/-! ## What follows a value -/

/-- What follows a value where it is written: the end of its line, the comma or bracket of a list,
or the comma or brace of a table in one piece. -/
inductive ValueEnd : List Char → Prop where
  | line (rest : List Char) : ValueEnd ('\n' :: rest)
  | comma (rest : List Char) : ValueEnd (',' :: rest)
  | bracket (rest : List Char) : ValueEnd (']' :: rest)
  | brace (rest : List Char) : ValueEnd (' ' :: '\x7d' :: rest)

theorem ValueEnd.head_ne {rest : List Char} (ends : ValueEnd rest) :
    rest.head? ≠ some '"' ∧ rest.head? ≠ some '\'' := by
  cases ends <;> simp

/-- An unquoted scalar is cut off where the value ends. -/
theorem scalarText_append {text rest : List Char} (unquoted : Unquoted text)
    (ends : ValueEnd rest) : scalarText (text ++ rest) = (text, rest) := by
  have cut : (text ++ rest).takeWhile (!endsScalar ·) = text ∧
      (text ++ rest).dropWhile (!endsScalar ·) = rest := by
    apply Text.takeWhile_append_head
    · intro c held
      rw [(unquoted.2 c held).1]
      rfl
    · cases ends <;> simp [endsScalar]
  rw [scalarText, cut.1, cut.2]
  cases ends <;> rfl

end BlockForge.Toml
