/-
# Numbers read back

A number of a JSON text is a row of digits with at most two further parts, a fraction and a power
of ten. Where nothing follows that would continue the number, the reader takes in all of it: a
whole number comes back as it was written, and a double as what its digits are taken for. Passing
over the number ends at the same place.
-/

import BlockForge.Json.Printer
import BlockForge.Json.Reading
import BlockForge.Proofs.Decimal.Rereading
import BlockForge.Proofs.Text.Split

namespace BlockForge.Json

/-- What follows a number does not continue it. -/
def Stops (text : List Char) : Prop :=
  ∀ c ∈ text.head?, c.isDigit = false ∧ c ≠ '.' ∧ c ≠ 'e' ∧ c ≠ 'E'

def AllDigits (digits : List Char) : Prop := ∀ c ∈ digits, c.isDigit

/-- Digits that may start a number: a zero is the only one of them that stands first. -/
def WellStarted (digits : List Char) : Prop := ∃ c rest, digits = c :: rest ∧ (c = '0' → rest = [])

theorem Stops.not_digit {text : List Char} (stops : Stops text) :
    text.head?.any Char.isDigit = false := by
  cases text with
  | nil => rfl
  | cons c rest => exact (stops c rfl).1

/-! ## Rows of digits -/

theorem takeWhile_digits {digits : List Char} (all : AllDigits digits) {rest : List Char}
    (ends : rest.head?.any Char.isDigit = false) :
    (digits ++ rest).takeWhile Char.isDigit = digits ∧
      (digits ++ rest).dropWhile Char.isDigit = rest := by
  refine Text.takeWhile_append_head all fun c head => ?_
  rw [Option.mem_def.mp head] at ends
  exact ends

theorem skipDigits_append {digits rest : List Char} (all : AllDigits digits)
    (ends : rest.head?.any Char.isDigit = false) (offset : Nat) :
    Cursor.skipDigits ⟨digits ++ rest, offset⟩ = ⟨rest, offset + digits.length⟩ := by
  rw [Cursor.skipDigits, (takeWhile_digits all ends).1, (takeWhile_digits all ends).2]

theorem le_ofDigitChars (digits : List Char) (n : Nat) : n ≤ Nat.ofDigitChars 10 digits n := by
  rw [Nat.ofDigitChars_eq_ofDigitChars_zero]
  exact Nat.le_trans (Nat.le_mul_of_pos_left n (Nat.pow_pos (by decide))) (Nat.le_add_right _ _)

/-- Digits are all taken as long as their number fits. -/
theorem takeDigits_eq {limit n : Nat} {digits : List Char}
    (fits : Nat.ofDigitChars 10 digits n ≤ limit) :
    takeDigits limit n digits = (Nat.ofDigitChars 10 digits n, []) := by
  induction digits generalizing n with
  | nil => rfl
  | cons c rest ih =>
      rw [Nat.ofDigitChars_cons] at fits ⊢
      rw [takeDigits, if_neg (Nat.not_lt.mpr (Nat.le_trans (le_ofDigitChars rest _) fits))]
      exact ih fits

/-! ## The parts of a number -/

section Parts

variable {negative : Bool} {rest : List Char} (stops : Stops rest)

include stops

/-- What follows the digits starts no power of ten. -/
theorem Stops.no_power (more : List Char) : rest ≠ 'e' :: more ∧ rest ≠ 'E' :: more := by
  constructor
  · rintro rfl
    exact (stops 'e' rfl).2.2.1 rfl
  · rintro rfl
    exact (stops 'E' rfl).2.2.2 rfl

theorem readAfterDigits_stop (significand : Nat) (shift : Int) (offset : Nat) :
    readAfterDigits negative significand shift ⟨rest, offset⟩ =
      scaledNumber negative significand shift ⟨rest, offset⟩ := by
  rw [readAfterDigits]
  split
  · exact absurd ‹rest = _› (stops.no_power _).1
  · exact absurd ‹rest = _› (stops.no_power _).2
  · rfl

theorem skipAfterDigits_stop (offset : Nat) :
    skipAfterDigits ⟨rest, offset⟩ = .ok ⟨rest, offset⟩ := by
  rw [skipAfterDigits]
  split
  · exact absurd ‹rest = _› (stops.no_power _).1
  · exact absurd ‹rest = _› (stops.no_power _).2
  · rfl

/-- A power of ten with its sign is added to what is known of the power. -/
theorem readPower_digits {digits : List Char} (all : AllDigits digits) (nonempty : digits ≠ [])
    (fits : digitsValue digits ≤ greatestPower) (down : Bool) (significand : Nat) (shift : Int)
    (offset : Nat) :
    ∃ stop, readPower negative significand shift
        ⟨(if down then '-' else '+') :: digits ++ rest, offset⟩ =
      scaledNumber negative significand
        (if down then shift - digitsValue digits else shift + digitsValue digits) ⟨rest, stop⟩ := by
  obtain ⟨c, more, rfl⟩ := List.exists_cons_of_ne_nil nonempty
  have digit : c.isDigit = true := all c List.mem_cons_self
  have taken := takeDigits_eq (n := 0) fits
  rw [← digitsValue_eq] at taken
  have row := (takeWhile_digits all stops.not_digit).1
  have skipped := skipDigits_append all stops.not_digit (offset + 1)
  rw [List.cons_append] at row skipped
  refine ⟨offset + 1 + (c :: more).length, ?_⟩
  cases down <;>
    simp only [readPower, List.cons_append, Bool.false_eq_true, if_false, if_true, digit,
      Bool.not_true, row, taken, List.isEmpty_nil, skipped]

theorem skipPower_digits {digits : List Char} (all : AllDigits digits) (nonempty : digits ≠ [])
    (down : Bool) (offset : Nat) :
    ∃ stop, skipPower ⟨(if down then '-' else '+') :: digits ++ rest, offset⟩ =
      .ok ⟨rest, stop⟩ := by
  obtain ⟨c, more, rfl⟩ := List.exists_cons_of_ne_nil nonempty
  have digit : c.isDigit = true := all c List.mem_cons_self
  have skipped := skipDigits_append all stops.not_digit (offset + 1)
  rw [List.cons_append] at skipped
  refine ⟨offset + 1 + (c :: more).length, ?_⟩
  cases down <;>
    simp only [skipPower, List.cons_append, Bool.false_eq_true, if_false, if_true,
      List.head?_cons, Option.any_some, digit, skipped]

end Parts

/-- A fraction adds its digits to those of the number and lowers the power of ten. -/
theorem readFraction_digits {fraction rest : List Char} (all : AllDigits fraction)
    (nonempty : fraction ≠ []) (ends : rest.head?.any Char.isDigit = false) {significand : Nat}
    (fits : Nat.ofDigitChars 10 fraction significand ≤ greatestUnsigned64) (negative : Bool)
    (offset : Nat) :
    readFraction negative significand 0 ⟨fraction ++ rest, offset⟩ =
      readAfterDigits negative (Nat.ofDigitChars 10 fraction significand) (-fraction.length)
        ⟨rest, offset + fraction.length⟩ := by
  have row := (takeWhile_digits all ends).1
  have notEmpty : fraction.isEmpty = false := by simpa using nonempty
  simp only [readFraction, row, notEmpty, Bool.false_eq_true, if_false, takeDigits_eq fits,
    skipDigits_append all ends, List.length_nil, Nat.sub_zero, Int.zero_sub]

/-! ## Numbers after their sign -/

section Unsigned

variable {whole : List Char} (all : AllDigits whole) (started : WellStarted whole)

include all started

/-- Nothing is wrong with the first digits of a number. -/
theorem starts_well (rest : List Char) (ends : rest.head?.any Char.isDigit = false) :
    ∃ c more, whole = c :: more ∧ c.isDigit = true ∧
      (c = '0' && (more ++ rest).head?.any Char.isDigit) = false := by
  obtain ⟨c, more, rfl, zero⟩ := started
  refine ⟨c, more, rfl, all c List.mem_cons_self, ?_⟩
  by_cases first : c = '0'
  · rw [zero first, List.nil_append, ends, Bool.and_false]
  · simp [first]

section Fits

variable (negative : Bool) (fits : digitsValue whole ≤ greatestUnsigned64) (offset : Nat)

include fits

/-- The digits in front are taken as one number, and what follows them tells how to go on. -/
theorem readUnsigned_whole {rest : List Char} : rest.head?.any Char.isDigit = false →
    readUnsigned negative ⟨whole ++ rest, offset⟩ =
      match rest with
      | '.' :: fraction =>
        readFraction negative (digitsValue whole) 0 ⟨fraction, offset + whole.length + 1⟩
      | 'e' :: _ => readAfterDigits negative (digitsValue whole) 0 ⟨rest, offset + whole.length⟩
      | 'E' :: _ => readAfterDigits negative (digitsValue whole) 0 ⟨rest, offset + whole.length⟩
      | _ => .ok (wholeNumber negative (digitsValue whole), ⟨rest, offset + whole.length⟩) := by
  intro ends
  obtain ⟨c, more, rfl, digit, alone⟩ := starts_well all started rest ends
  have row := (takeWhile_digits all ends).1
  have skipped := skipDigits_append all ends offset
  have taken := takeDigits_eq (n := 0) fits
  rw [← digitsValue_eq] at taken
  rw [List.cons_append] at row skipped ⊢
  simp only [readUnsigned, digit, Bool.not_true, Bool.false_eq_true, if_false, alone, row, taken,
    skipped, List.isEmpty_nil, if_true, List.length_nil]
  rfl

theorem readUnsigned_stop {rest : List Char} (stops : Stops rest) :
    readUnsigned negative ⟨whole ++ rest, offset⟩ =
      .ok (wholeNumber negative (digitsValue whole), ⟨rest, offset + whole.length⟩) := by
  rw [readUnsigned_whole all started negative fits offset stops.not_digit]
  split
  · exact absurd rfl (stops '.' rfl).2.1
  · exact absurd rfl (stops 'e' rfl).2.2.1
  · exact absurd rfl (stops 'E' rfl).2.2.2
  · rfl

theorem readUnsigned_power (rest : List Char) :
    readUnsigned negative ⟨whole ++ 'e' :: rest, offset⟩ =
      readPower negative (digitsValue whole) 0 ⟨rest, offset + whole.length + 1⟩ :=
  readUnsigned_whole all started negative fits offset rfl

end Fits

/-- Passing over a number takes the digits in front, and what follows them tells how to go on. -/
theorem skipUnsigned_whole {rest : List Char} (offset : Nat) :
    rest.head?.any Char.isDigit = false →
    skipUnsigned ⟨whole ++ rest, offset⟩ =
      match rest with
      | '.' :: fraction =>
        if fraction.head?.any Char.isDigit then
          skipAfterDigits (Cursor.skipDigits ⟨fraction, offset + whole.length + 1⟩)
        else .error (Cursor.faultSeen ⟨fraction, offset + whole.length + 1⟩ .invalidNumber)
      | _ => skipAfterDigits ⟨rest, offset + whole.length⟩ := by
  intro ends
  obtain ⟨c, more, rfl, digit, alone⟩ := starts_well all started rest ends
  have skipped := skipDigits_append all ends offset
  have passed := skipUnsigned.eq_def ⟨(c :: more) ++ rest, offset⟩
  rw [List.cons_append] at skipped passed ⊢
  simp only [digit, Bool.not_true, Bool.false_eq_true, if_false, alone, skipped] at passed
  exact passed

theorem skipUnsigned_stop {rest : List Char} (stops : Stops rest) (offset : Nat) :
    skipUnsigned ⟨whole ++ rest, offset⟩ = .ok ⟨rest, offset + whole.length⟩ := by
  rw [skipUnsigned_whole all started offset stops.not_digit]
  split
  · exact absurd rfl (stops '.' rfl).2.1
  · exact skipAfterDigits_stop stops _

theorem readUnsigned_point {fraction rest : List Char} (digits : AllDigits fraction)
    (nonempty : fraction ≠ []) (ends : rest.head?.any Char.isDigit = false)
    (fits : digitsValue (whole ++ fraction) ≤ greatestUnsigned64) (negative : Bool)
    (offset : Nat) :
    readUnsigned negative ⟨whole ++ '.' :: (fraction ++ rest), offset⟩ =
      readAfterDigits negative (digitsValue (whole ++ fraction)) (-fraction.length)
        ⟨rest, offset + whole.length + 1 + fraction.length⟩ := by
  have value : digitsValue (whole ++ fraction) = Nat.ofDigitChars 10 fraction (digitsValue whole) :=
    Nat.ofDigitChars_append 0
  rw [value] at fits ⊢
  have fitsWhole := Nat.le_trans (le_ofDigitChars fraction _) fits
  rw [readUnsigned_whole all started negative fitsWhole offset rfl]
  exact readFraction_digits digits nonempty ends fits negative _

theorem skipUnsigned_point {fraction rest : List Char} (digits : AllDigits fraction)
    (nonempty : fraction ≠ []) (ends : rest.head?.any Char.isDigit = false) (offset : Nat) :
    skipUnsigned ⟨whole ++ '.' :: (fraction ++ rest), offset⟩ =
      skipAfterDigits ⟨rest, offset + whole.length + 1 + fraction.length⟩ := by
  rw [skipUnsigned_whole all started offset rfl]
  obtain ⟨d, others, rfl⟩ := List.exists_cons_of_ne_nil nonempty
  have digit : ((d :: others) ++ rest).head?.any Char.isDigit = true := digits d List.mem_cons_self
  simp only [digit, if_true, skipDigits_append digits ends]

theorem skipUnsigned_power (rest : List Char) (offset : Nat) :
    skipUnsigned ⟨whole ++ 'e' :: rest, offset⟩ =
      skipPower ⟨rest, offset + whole.length + 1⟩ :=
  skipUnsigned_whole all started offset rfl

end Unsigned

/-! ## Whole numbers -/

theorem allDigits_natChars (n : Nat) : AllDigits (natChars n) := fun _ held =>
  Nat.isDigit_of_mem_toDigits (by decide) (by decide) held

theorem wellStarted_natChars (n : Nat) : WellStarted (natChars n) := by
  by_cases zero : n = 0
  · subst zero
    exact ⟨'0', [], rfl, fun _ => rfl⟩
  · obtain ⟨c, more, digits⟩ := List.exists_cons_of_ne_nil (Nat.toDigits_ne_nil (n := n) (b := 10))
    exact ⟨c, more, digits, fun first => absurd first (toDigits_head_ne_zero zero digits)⟩

/-- A text that starts with a digit has no sign. -/
theorem readNumber_unsigned {text : List Char} (digit : text.head?.any Char.isDigit = true)
    (offset : Nat) : readNumber ⟨text, offset⟩ = readUnsigned false ⟨text, offset⟩ ∧
      skipNumber ⟨text, offset⟩ = skipUnsigned ⟨text, offset⟩ := by
  have noSign (rest : List Char) : text ≠ '-' :: rest := by
    rintro rfl
    cases digit
  constructor
  · rw [readNumber]
    split
    · exact absurd ‹text = _› (noSign _)
    · rfl
  · rw [skipNumber]
    split
    · exact absurd ‹text = _› (noSign _)
    · rfl

theorem head?_any_isDigit {digits : List Char} (all : AllDigits digits)
    (started : WellStarted digits) (rest : List Char) :
    (digits ++ rest).head?.any Char.isDigit = true := by
  obtain ⟨c, more, rfl, -⟩ := started
  exact all c List.mem_cons_self

/-- A text that a number is written as: the number is read from it, and passing over it ends
behind it. -/
def Spells (text : List Char) (n : Number) : Prop :=
  ∀ rest offset, Stops rest →
    (∃ after, readNumber ⟨text ++ rest, offset⟩ = .ok (n, after)) ∧
      ∃ stop, skipNumber ⟨text ++ rest, offset⟩ = .ok ⟨rest, stop⟩

theorem spells_natChars {n : Nat} (fits : n ≤ greatestUnsigned64) :
    Spells (natChars n) (.unsigned n) := by
  intro rest offset stops
  have all := allDigits_natChars n
  have started := wellStarted_natChars n
  have value : digitsValue (natChars n) = n := digitsValue_toDigits n
  have signless := readNumber_unsigned (head?_any_isDigit all started rest) offset
  constructor
  · rw [signless.1, readUnsigned_stop all started false (by rw [value]; exact fits) offset stops,
      value]
    exact ⟨_, rfl⟩
  · rw [signless.2, skipUnsigned_stop all started stops]
    exact ⟨_, rfl⟩

theorem spells_intChars {i : Int} (negative : i < 0) (fits : fitsSigned64 i) :
    Spells (intChars i) (.signed i) := by
  intro rest offset stops
  have all := allDigits_natChars i.natAbs
  have started := wellStarted_natChars i.natAbs
  have value : digitsValue (natChars i.natAbs) = i.natAbs := digitsValue_toDigits i.natAbs
  have short : i.natAbs ≤ greatestUnsigned64 := by
    simp only [fitsSigned64, Bool.and_eq_true, decide_eq_true_eq] at fits
    rw [show greatestUnsigned64 = 18446744073709551615 from rfl]
    omega
  have same : -(i.natAbs : Int) = i := by omega
  rw [intChars, signChars, if_pos (decide_eq_true negative)]
  constructor
  · show ∃ after, readUnsigned true ⟨natChars i.natAbs ++ rest, offset + 1⟩ = _
    rw [readUnsigned_stop all started true (by rw [value]; exact short) _ stops, value, wholeNumber,
      same, if_neg (by simp), if_pos ⟨by omega, fits⟩]
    exact ⟨_, rfl⟩
  · show ∃ stop, skipUnsigned ⟨natChars i.natAbs ++ rest, offset + 1⟩ = _
    rw [skipUnsigned_stop all started stops]
    exact ⟨_, rfl⟩

/-! ## Doubles -/

/-- A text that a magnitude is read from after its sign. -/
def SpellsMagnitude (text : List Char) (x : Magnitude) : Prop :=
  ∀ rest offset, Stops rest → (text ++ rest).head?.any Char.isDigit = true ∧
    (∀ negative, ∃ after, readUnsigned negative ⟨text ++ rest, offset⟩ =
      .ok (.float (.finite negative x), after)) ∧
    ∃ stop, skipUnsigned ⟨text ++ rest, offset⟩ = .ok ⟨rest, stop⟩

/-- Digits that can be written as a number of a text. -/
structure Writable (d : Digits) : Prop where
  all : AllDigits d.digits
  started : ∃ c rest, d.digits = c :: rest ∧ (c = '0' → rest = [] ∧ d.point = 1)
  few : digitsValue d.digits ≤ 10 ^ 17
  near : -1000 ≤ d.point ∧ d.point ≤ 1000

theorem writable_shortest (x : Magnitude) (tie : Tie) : Writable (x.shortest tie) := by
  by_cases zero : x.isZero = true
  · rw [Magnitude.shortest, if_pos zero]
    exact {
      all := by simp [AllDigits]
      started := ⟨'0', [], rfl, fun _ => ⟨rfl, rfl⟩⟩
      few := by decide
      near := by decide }
  · have nonzero : x.isZero = false := by simpa using zero
    obtain ⟨nonempty, all⟩ := Magnitude.shortest_digits nonzero tie
    obtain ⟨c, rest, digits⟩ := List.exists_cons_of_ne_nil nonempty
    exact {
      all := all
      started := ⟨c, rest, digits, fun first =>
        absurd first (Magnitude.shortest_head_ne_zero nonzero digits)⟩
      few := (Magnitude.shortest_value nonzero tie).2.1
      near := Magnitude.shortest_point nonzero tie }

theorem scaledNumber_eq {significand : Nat} {power : Int} {x : Magnitude}
    (taken : Magnitude.ofScaled? significand power = some x) (negative : Bool) (after : Cursor) :
    scaledNumber negative significand power after = .ok (.float (.finite negative x), after) := by
  rw [scaledNumber, taken, Option.elim_some]

theorem few_le_greatest {n : Nat} (few : n ≤ 10 ^ 17) : n ≤ greatestUnsigned64 := by
  have enough : 10 ^ 17 ≤ greatestUnsigned64 := by decide
  exact Nat.le_trans few enough

/-- A number with a fraction and no power of ten. -/
theorem spellsMagnitude_point {whole fraction : List Char} (all : AllDigits whole)
    (started : WellStarted whole) (digits : AllDigits fraction) (nonempty : fraction ≠ [])
    (few : digitsValue (whole ++ fraction) ≤ 10 ^ 17) {x : Magnitude}
    (taken : Magnitude.ofScaled? (digitsValue (whole ++ fraction)) (-fraction.length) = some x) :
    SpellsMagnitude (whole ++ '.' :: fraction) x := by
  intro rest offset stops
  rw [List.append_assoc, List.cons_append]
  refine ⟨head?_any_isDigit all started _, fun negative => ?_, ?_⟩
  · rw [readUnsigned_point all started digits nonempty stops.not_digit (few_le_greatest few),
      readAfterDigits_stop stops, scaledNumber_eq taken]
    exact ⟨_, rfl⟩
  · rw [skipUnsigned_point all started digits nonempty stops.not_digit, skipAfterDigits_stop stops]
    exact ⟨_, rfl⟩

/-- A number with a power of ten and no fraction. -/
theorem spellsMagnitude_power {whole : List Char} (all : AllDigits whole)
    (started : WellStarted whole) (few : digitsValue whole ≤ 10 ^ 17) {digits : List Char}
    (powerAll : AllDigits digits) (powerNonempty : digits ≠ [])
    (fits : digitsValue digits ≤ greatestPower) (down : Bool) {x : Magnitude}
    (taken : Magnitude.ofScaled? (digitsValue whole)
      (if down then 0 - digitsValue digits else 0 + digitsValue digits) = some x) :
    SpellsMagnitude (whole ++ 'e' :: (if down then '-' else '+') :: digits) x := by
  intro rest offset stops
  rw [List.append_assoc, List.cons_append, List.cons_append, ← List.cons_append]
  refine ⟨head?_any_isDigit all started _, fun negative => ?_, ?_⟩
  · obtain ⟨stop, read⟩ := @readPower_digits negative _ stops _ powerAll powerNonempty fits
      down (digitsValue whole) 0 (offset + whole.length + 1)
    rw [readUnsigned_power all started negative (few_le_greatest few), read, scaledNumber_eq taken]
    exact ⟨_, rfl⟩
  · rw [skipUnsigned_power all started]
    exact skipPower_digits stops powerAll powerNonempty down _

/-- A number with a fraction and a power of ten. -/
theorem spellsMagnitude_point_power {whole fraction : List Char} (all : AllDigits whole)
    (started : WellStarted whole) (fractionAll : AllDigits fraction) (nonempty : fraction ≠ [])
    (few : digitsValue (whole ++ fraction) ≤ 10 ^ 17) {digits : List Char}
    (powerAll : AllDigits digits) (powerNonempty : digits ≠ [])
    (fits : digitsValue digits ≤ greatestPower) (down : Bool) {x : Magnitude}
    (taken : Magnitude.ofScaled? (digitsValue (whole ++ fraction))
      (if down then -fraction.length - digitsValue digits
        else -fraction.length + digitsValue digits) = some x) :
    SpellsMagnitude
      (whole ++ '.' :: (fraction ++ 'e' :: (if down then '-' else '+') :: digits)) x := by
  intro rest offset stops
  rw [List.append_assoc, List.cons_append, List.append_assoc, List.cons_append, List.cons_append]
  refine ⟨head?_any_isDigit all started _, fun negative => ?_, ?_⟩
  · obtain ⟨stop, read⟩ := @readPower_digits negative _ stops _ powerAll powerNonempty fits
      down (digitsValue (whole ++ fraction)) (-fraction.length)
      (offset + whole.length + 1 + fraction.length + 1)
    rw [readUnsigned_point all started fractionAll nonempty (by rfl) (few_le_greatest few)]
    exact ⟨_, read.trans (scaledNumber_eq taken _ _)⟩
  · rw [skipUnsigned_point all started fractionAll nonempty (by rfl)]
    exact skipPower_digits stops powerAll powerNonempty down _

theorem isDigit_zeros (count : Nat) : AllDigits (List.replicate count '0') := by
  intro c held
  rw [List.eq_of_mem_replicate held]
  rfl

theorem AllDigits.append {front back : List Char} (frontAll : AllDigits front)
    (backAll : AllDigits back) : AllDigits (front ++ back) := by
  intro c held
  rcases List.mem_append.mp held with left | right
  · exact frontAll c left
  · exact backAll c right

theorem digitsValue_zeros_append (count : Nat) (digits : List Char) :
    digitsValue (List.replicate count '0' ++ digits) = digitsValue digits := by
  rw [digitsValue_eq, Nat.ofDigitChars_append, Nat.ofDigitChars_replicate_zero, Nat.mul_zero]
  rfl

/-- The parts of a number in full. It has digits on both sides of its point, which denote the number
of its shortest digits. Zeros are added to these only where none of them stands after the point. -/
structure PlainParts (d : Digits) (whole fraction : List Char) (zeros : Nat) : Prop where
  chars : d.plain true = whole ++ '.' :: fraction
  wholeAll : AllDigits whole
  started : WellStarted whole
  fractionAll : AllDigits fraction
  nonempty : fraction ≠ []
  value : digitsValue (whole ++ fraction) = digitsValue d.digits * 10 ^ zeros
  placed : -(fraction.length : Int) + zeros = d.point - d.digits.length
  added : zeros = if d.digits.length ≤ d.point then (d.point - d.digits.length).toNat + 1 else 0

namespace Writable

variable {d : Digits} (writable : Writable d) {x : Magnitude} (taken : d.taken? = some x)

include writable

theorem nonempty : d.digits ≠ [] := by
  obtain ⟨c, rest, digits, -⟩ := writable.started
  rw [digits]
  exact List.cons_ne_nil c rest

/-- All digits stand after the point. -/
theorem plainParts_small (small : d.point ≤ 0) :
    PlainParts d ['0'] (List.replicate (-d.point).toNat '0' ++ d.digits) 0 where
  chars := by
    rw [Digits.plain, if_pos small]
    rfl
  wholeAll := by simp [AllDigits]
  started := ⟨'0', [], rfl, fun _ => rfl⟩
  fractionAll := (isDigit_zeros _).append writable.all
  nonempty := by simp [writable.nonempty]
  value := by
    rw [← List.append_assoc, show ['0'] ++ List.replicate (-d.point).toNat '0' =
      List.replicate ((-d.point).toNat + 1) '0' from rfl, digitsValue_zeros_append, Nat.pow_zero,
      Nat.mul_one]
  placed := by
    rw [List.length_append, List.length_replicate]
    omega
  added := by
    have positive := List.length_pos_iff.mpr writable.nonempty
    exact (if_neg (by omega)).symm

/-- The digits stand around the point. -/
theorem plainParts_around (large : ¬ d.point ≤ 0) (short : d.point < d.digits.length) :
    PlainParts d (d.digits.take d.point.toNat) (d.digits.drop d.point.toNat) 0 where
  chars := by rw [Digits.plain, if_neg large, if_pos short]
  wholeAll c held := writable.all c (List.mem_of_mem_take held)
  started := by
    obtain ⟨c, rest, digits, zero⟩ := writable.started
    obtain ⟨before, counted⟩ : ∃ before, d.point.toNat = before + 1 :=
      ⟨d.point.toNat - 1, by omega⟩
    rw [digits, counted, List.take_succ_cons]
    refine ⟨c, rest.take before, rfl, fun first => ?_⟩
    rw [(zero first).1, List.take_nil]
  fractionAll c held := writable.all c (List.mem_of_mem_drop held)
  nonempty none := by
    have counted := congrArg List.length none
    rw [List.length_drop, List.length_nil] at counted
    omega
  value := by rw [List.take_append_drop, Nat.pow_zero, Nat.mul_one]
  placed := by
    rw [List.length_drop]
    omega
  added := (if_neg (by omega)).symm

/-- All digits stand before the point. -/
theorem plainParts_full (large : ¬ d.point ≤ 0) (full : ¬ d.point < d.digits.length) :
    PlainParts d (d.digits ++ List.replicate (d.point.toNat - d.digits.length) '0') ['0']
      ((d.point - d.digits.length).toNat + 1) where
  chars := by rw [Digits.plain, if_neg large, if_neg full, if_pos rfl, List.append_assoc]
  wholeAll := writable.all.append (isDigit_zeros _)
  started := by
    obtain ⟨c, rest, digits, zero⟩ := writable.started
    rw [digits]
    refine ⟨c, rest ++ List.replicate (d.point.toNat - (c :: rest).length) '0', rfl,
      fun first => ?_⟩
    rw [(zero first).1, (zero first).2]
    rfl
  fractionAll := by simp [AllDigits]
  nonempty := by simp
  value := by
    have zeros : d.point.toNat - d.digits.length = (d.point - d.digits.length).toNat := by omega
    rw [List.append_assoc, ← digitsValue_append_zeros, zeros, List.replicate_succ']
  placed := by
    rw [List.length_singleton]
    omega
  added := (if_pos (by omega)).symm

theorem exists_plainParts : ∃ whole fraction zeros, PlainParts d whole fraction zeros := by
  by_cases small : d.point ≤ 0
  · exact ⟨_, _, _, writable.plainParts_small small⟩
  by_cases short : d.point < d.digits.length
  · exact ⟨_, _, _, writable.plainParts_around small short⟩
  · exact ⟨_, _, _, writable.plainParts_full small short⟩

include taken

theorem spells_plain (short : d.point ≤ 16) : SpellsMagnitude (d.plain true) x := by
  obtain ⟨whole, fraction, zeros, parts⟩ := writable.exists_plainParts
  have value := parts.value
  have placed := parts.placed
  have added := parts.added
  rw [parts.chars]
  rw [Digits.taken?] at taken
  by_cases full : d.digits.length ≤ d.point
  · rw [if_pos full] at added
    rw [if_pos ⟨full, short⟩, ← added, ← value] at taken
    refine spellsMagnitude_point parts.wholeAll parts.started parts.fractionAll parts.nonempty ?_ ?_
    · rw [value, added]
      exact significand_full_le writable.all full short
    · rw [show -(fraction.length : Int) = -1 by omega]
      exact taken
  · rw [if_neg full] at added
    rw [added, Nat.pow_zero, Nat.mul_one] at value
    rw [if_neg fun both => full both.1, ← value] at taken
    refine spellsMagnitude_point parts.wholeAll parts.started parts.fractionAll parts.nonempty ?_ ?_
    · rw [value]
      exact writable.few
    · rw [show -(fraction.length : Int) = d.point - d.digits.length by omega]
      exact taken

omit writable taken in
theorem signedPower_eq (point shift : Int) :
    (if decide (point - 1 < 0) then -shift - ((point - 1).natAbs : Int)
      else -shift + (point - 1).natAbs) = point - 1 - shift := by
  by_cases down : point - 1 < 0
  · rw [if_pos (decide_eq_true down)]
    omega
  · rw [if_neg (by simpa using down)]
    omega

/-- Digits with a power of ten. -/
theorem spells_scientific (outside : d.point ≤ -5 ∨ 16 < d.point) :
    SpellsMagnitude (d.scientific true) x := by
  have positive := List.length_pos_iff.mpr writable.nonempty
  have near := writable.near
  rw [Digits.taken?, if_neg (by omega)] at taken
  have powerAll : AllDigits (Nat.toDigits 10 (d.point - 1).natAbs) := allDigits_natChars _
  have powerNonempty : Nat.toDigits 10 (d.point - 1).natAbs ≠ [] := Nat.toDigits_ne_nil
  have value : digitsValue (Nat.toDigits 10 (d.point - 1).natAbs) = (d.point - 1).natAbs :=
    digitsValue_toDigits _
  have fits : digitsValue (Nat.toDigits 10 (d.point - 1).natAbs) ≤ greatestPower := by
    rw [value, show greatestPower = 2147483647 from rfl]
    omega
  have sign : (if d.point - 1 < 0 then ['-'] else if true then ['+'] else []) =
      [if decide (d.point - 1 < 0) then '-' else '+'] := by
    by_cases down : d.point - 1 < 0 <;> simp [down]
  have all := writable.all
  have few := writable.few
  obtain ⟨c, rest, digits, zero⟩ := writable.started
  rw [digits] at all few taken
  rw [Digits.scientific, sign, digits]
  cases rest with
  | nil =>
      apply @spellsMagnitude_power [c] all ⟨c, [], rfl, fun _ => rfl⟩ few _ powerAll
        powerNonempty fits (decide (d.point - 1 < 0))
      have power := signedPower_eq d.point 0
      rw [Int.neg_zero] at power
      rw [value, power, Int.sub_zero]
      exact taken
  | cons next more =>
      have text : [c] ++ '.' :: ((next :: more) ++
          'e' :: (if decide (d.point - 1 < 0) then '-' else '+') ::
            Nat.toDigits 10 (d.point - 1).natAbs) =
          (c :: next :: more).take 1 ++ '.' :: next :: more ++
            'e' :: [if decide (d.point - 1 < 0) then '-' else '+'] ++
              Nat.toDigits 10 (d.point - 1).natAbs := by
        simp
      have power : d.point - 1 - ((next :: more).length : Int) =
          d.point - (c :: next :: more).length := by
        simp only [List.length_cons]
        omega
      show SpellsMagnitude ((c :: next :: more).take 1 ++ '.' :: next :: more ++
        'e' :: [if decide (d.point - 1 < 0) then '-' else '+'] ++
          Nat.toDigits 10 (d.point - 1).natAbs) x
      rw [← text]
      apply @spellsMagnitude_point_power [c] (next :: more)
        (fun d held => all d (List.mem_of_mem_take (i := 1) held)) ⟨c, [], rfl, fun _ => rfl⟩
        (fun d held => all d (List.mem_cons_of_mem c held)) (List.cons_ne_nil _ _) few _ powerAll
        powerNonempty fits (decide (d.point - 1 < 0))
      rw [value, signedPower_eq, power]
      exact taken

end Writable

/-- A magnitude is read from what it is written as. -/
theorem spellsMagnitude_reread (x : Magnitude) :
    SpellsMagnitude (floatFormat.magnitude x) x.reread := by
  have writable := writable_shortest x .even
  have taken := x.taken?_shortest
  rw [DecimalFormat.magnitude]
  split
  · rename_i plain
    simp only [floatFormat, Option.all_some, Bool.and_eq_true] at plain
    exact writable.spells_plain taken (of_decide_eq_true plain.1)
  · rename_i scientific
    simp only [floatFormat, Option.all_some, Bool.and_eq_true] at scientific
    have outside : ¬ ((x.shortest .even).point ≤ 16 ∧ -5 < (x.shortest .even).point) :=
      fun inside => scientific ⟨decide_eq_true inside.1, decide_eq_true inside.2⟩
    exact writable.spells_scientific taken (by omega)

/-- A finite double is read from what it is written as, as another one perhaps. -/
theorem spells_floatChars {x : Binary64} (finite : x.isFinite) :
    Spells (floatChars x) (.float x.reread) := by
  cases x with
  | infinite negative => cases finite
  | nan => cases finite
  | finite negative x =>
      intro rest offset stops
      rw [floatChars, if_pos finite, DecimalFormat.write]
      show (∃ after, readNumber ⟨signChars (negative && true) ++ _ ++ rest, offset⟩ = _) ∧
        ∃ stop, skipNumber ⟨signChars (negative && true) ++ _ ++ rest, offset⟩ = _
      obtain ⟨digit, -, -⟩ := spellsMagnitude_reread x rest offset stops
      rw [Bool.and_true]
      cases negative with
      | false =>
          obtain ⟨-, read, skip⟩ := spellsMagnitude_reread x rest offset stops
          obtain ⟨signless, signlessSkip⟩ := readNumber_unsigned digit offset
          rw [signChars, if_neg Bool.false_ne_true, List.nil_append, signless, signlessSkip]
          exact ⟨read false, skip⟩
      | true =>
          obtain ⟨-, read, skip⟩ := spellsMagnitude_reread x rest (offset + 1) stops
          exact ⟨read true, skip⟩

end BlockForge.Json
