/-
# Decimals read once

The text of a double is a row of digits with at most two further parts, a fraction and a power of
ten, behind a sign or none. The reader takes it apart again, so that a text that is put together
from such parts is read as the decimal that its digits and its power of ten denote, rounded once.
-/

import BlockForge.Decimal.Notation
import BlockForge.Decimal.Numeral
import BlockForge.Proofs.Decimal.Rereading
import BlockForge.Proofs.Text.Pattern
import BlockForge.Proofs.Text.Split

namespace BlockForge

/-- The digits of a fraction behind their point; nothing, if there are none. -/
def fractionChars : List Char → List Char
  | [] => []
  | c :: rest => '.' :: c :: rest

/-- What follows the digits of a numeral, and the power of ten that it stands for. -/
inductive PowerTail : List Char → Int → Prop
  | none : PowerTail [] 0
  | power {chars : List Char} {power : Int} (signed : signedDigits? chars = some power) :
      PowerTail ('e' :: chars) power

theorem signedDigits?_sign (down : Bool) (n : Nat) :
    signedDigits? ((if down then '-' else '+') :: natChars n) =
      some (if down then -(n : Int) else n) := by
  have digits : (natChars n).all Char.isDigit := List.all_eq_true.mpr fun c held =>
    Nat.isDigit_of_mem_toDigits (by decide) (by decide) held
  have nonempty : (natChars n).isEmpty = false :=
    List.isEmpty_eq_false_iff.mpr Nat.toDigits_ne_nil
  have value : digitsValue (natChars n) = n := digitsValue_toDigits n
  cases down <;> simp [signedDigits?, digits, nonempty, value]

namespace Binary64

variable {whole fraction tail : List Char} {power : Int}

/-- A numeral is read as the decimal of its parts. -/
theorem ofUnsigned?_parts (wholeAll : ∀ c ∈ whole, c.isDigit) (nonempty : whole ≠ [])
    (fractionAll : ∀ c ∈ fraction, c.isDigit) (ends : PowerTail tail power) (negative : Bool) :
    ofUnsigned? negative (whole ++ (fractionChars fraction ++ tail)) =
      some (ofMagnitude negative
        (Magnitude.ofDecimal? (digitsValue (whole ++ fraction)) (power - fraction.length))) := by
  have tailStops : tail.takeWhile Char.isDigit = [] := by
    cases ends with
    | none => rfl
    | power signed => rfl
  have isEmpty : whole.isEmpty = false := List.isEmpty_eq_false_iff.mpr nonempty
  cases fraction with
  | nil =>
      obtain ⟨front, back⟩ := Text.takeWhile_append_stop wholeAll tailStops
      rw [fractionChars, List.nil_append]
      cases ends with
      | none =>
          simp only [ofUnsigned?, front, back, isEmpty, Bool.false_and, Bool.false_eq_true,
            if_false, Option.map_some]
      | power signed =>
          simp [ofUnsigned?, front, back, isEmpty, signed]
  | cons c rest =>
      obtain ⟨front, back⟩ := @Text.takeWhile_append_stop _ _ ('.' :: (c :: rest ++ tail))
        wholeAll rfl
      obtain ⟨inner, outer⟩ := Text.takeWhile_append_stop fractionAll tailStops
      rw [fractionChars, List.cons_append]
      cases ends with
      | none => simp only [ofUnsigned?, front, back, inner, outer, isEmpty, Bool.false_and,
          Bool.false_eq_true, if_false, Option.map_some]
      | power signed => simp only [ofUnsigned?, front, back, inner, outer, isEmpty, Bool.false_and,
          Bool.false_eq_true, if_false, beq_self_eq_true, Bool.true_or, if_true, signed,
          Option.map_some]

/-- A text that starts with a digit is none of the words, and the sign before it is seen. -/
theorem ofText?_signChars {text : List Char} (digit : text.head?.any Char.isDigit)
    (negative : Bool) :
    ofText? (String.ofList (signChars negative ++ text)) = ofUnsigned? negative text := by
  obtain ⟨c, rest, rfl⟩ : ∃ c rest, text = c :: rest := by
    cases text with
    | nil => cases digit
    | cons c rest => exact ⟨c, rest, rfl⟩
  have own : c.isDigit := digit
  have same : c.toLower = c := by
    have all : Pattern.digits.all fun c => c.toLower = c := by decide
    exact of_decide_eq_true (List.all_eq_true.mp all c (Pattern.mem_digits.mpr own))
  have noWord (word : String) (letter : word.toList.head?.any Char.isDigit = false) :
      String.ofList ((c :: rest).map Char.toLower) ≠ word := by
    rintro rfl
    rw [String.toList_ofList, List.map_cons, List.head?_cons, Option.any_some, same, own] at letter
    cases letter
  have noSign (sign : Char) (other : sign.isDigit = false) : c ≠ sign := by
    rintro rfl
    rw [own] at other
    cases other
  have minus := noSign '-' rfl
  have plus := noSign '+' rfl
  have inf := noWord "inf" rfl
  have infinity := noWord "infinity" rfl
  have nan := noWord "nan" rfl
  -- The words are excluded by what is assumed here, as long as the text is not taken apart.
  cases negative <;> simp [ofText?, signChars, minus, plus, -List.map_cons]

end Binary64

end BlockForge
