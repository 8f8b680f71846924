/-
# Names and their words

A name of letters and digits of ASCII is set apart into words, each of which begins at an upper-case
letter or at the front of the name, and the words are put in lower case. Nothing gets lost on the
way: the separators tell where the words begin, so the words run together with upper-case first
letters are the name again, if it begins with an upper-case letter itself.
-/

import BlockForge.Proofs.Text.Pattern
import BlockForge.Proofs.Text.Split
import Mathlib.Tactic.MkIffOfInductiveProp

namespace BlockForge.Text

variable {separator c : Char} {text : List Char}

/-! ## Letters and digits -/

/-- A character that does not separate words, and whose case is told and changed like that of a
character of ASCII. -/
@[mk_iff]
structure Ordinary (c : Char) : Prop where
  notGap : isWordGap c = false
  notSeparator : (c == '_' || c == '-') = false
  isUpper : Text.isUpper c = c.isUpper
  lower : Text.lower c = [c.toLower]
  lower_notGap : isWordGap c.toLower = false
  lower_small : (c.toLower.isLower || c.toLower.isDigit) = true
  lower_self : c.isUpper = false → c.toLower = c

instance (c : Char) : Decidable (Ordinary c) := decidable_of_iff' _ (ordinary_iff c)

/-- The letters and digits are gone through one by one. -/
theorem ordinary_of_isAlphanum (alphanumeric : c.isAlphanum) : Ordinary c := by
  have all : (Pattern.upper ++ Pattern.lower ++ Pattern.digits).all fun c => Ordinary c := by
    decide +kernel
  exact of_decide_eq_true (List.all_eq_true.mp all c (Pattern.mem_letters_digits.mpr alphanumeric))

theorem ordinary_of_isUpper (capital : c.isUpper) : Ordinary c :=
  ordinary_of_isAlphanum (Pattern.mem_letters_digits.mp
    (List.mem_append_left _ (List.mem_append_left _ (Pattern.mem_upper.mpr capital))))

theorem upper_toLower (capital : c.isUpper) : upper c.toLower = [c] := by
  have all : Pattern.upper.all fun c => upper c.toLower = [c] := by decide +kernel
  exact of_decide_eq_true (List.all_eq_true.mp all c (Pattern.mem_upper.mpr capital))

theorem exists_cons_of_isPascalName (pascal : isPascalName text) :
    ∃ first rest, text = first :: rest ∧ first.isUpper ∧ ∀ c ∈ rest, Ordinary c := by
  cases text with
  | nil => cases pascal
  | cons first rest =>
      rw [isPascalName, Bool.and_eq_true, List.all_eq_true] at pascal
      exact ⟨first, rest, rfl, pascal.1, fun c held => ordinary_of_isAlphanum (pascal.2 c held)⟩

/-! ## Words set apart -/

/-- A letter or digit as it is written behind another one where words are set apart. -/
def marked (separator c : Char) : List Char :=
  if c.isUpper then [separator, c.toLower] else [c]

/-- What is written behind a letter or digit depends on nothing else. -/
theorem separatedFrom_some {last : Char} (gap : isWordGap separator) (word : isWordGap last = false)
    (ordinary : ∀ c ∈ text, Ordinary c) :
    separatedFrom separator (some last) text = text.flatMap (marked separator) := by
  induction text generalizing last with
  | nil => rfl
  | cons c rest ih =>
      obtain ⟨own, others⟩ := List.forall_mem_cons.mp ordinary
      have behind : last ≠ separator := by
        rintro rfl
        rw [word] at gap
        cases gap
      rw [separatedFrom, own.notSeparator, if_neg Bool.false_ne_true, own.isUpper, own.lower,
        List.getLast?_singleton, ih own.lower_notGap others, List.flatMap_cons, marked]
      cases capital : c.isUpper with
      | true => simp [behind]
      | false => simp [own.lower_self capital]

/-- A name set apart into words. -/
theorem separatedFrom_none {first : Char} (gap : isWordGap separator) (own : Ordinary first)
    (ordinary : ∀ c ∈ text, Ordinary c) :
    separatedFrom separator none (first :: text) =
      first.toLower :: text.flatMap (marked separator) := by
  rw [separatedFrom, own.notSeparator, if_neg Bool.false_ne_true, own.lower,
    List.getLast?_singleton, separatedFrom_some gap own.lower_notGap ordinary]
  simp

/-- Where words were set apart, they are found again, the first one without its beginning. -/
theorem exists_pieces_of_marked (gap : isWordGap separator) (ordinary : ∀ c ∈ text, Ordinary c) :
    ∃ piece pieces, splitWhere isWordGap (text.flatMap (marked separator)) = piece :: pieces ∧
      piece ++ pieces.flatMap capitalized = text := by
  induction text with
  | nil => exact ⟨[], [], rfl, rfl⟩
  | cons c rest ih =>
      obtain ⟨own, others⟩ := List.forall_mem_cons.mp ordinary
      obtain ⟨piece, pieces, split, joined⟩ := ih others
      rw [List.flatMap_cons, marked]
      cases capital : c.isUpper with
      | true =>
          refine ⟨[], (c.toLower :: piece) :: pieces, ?_, ?_⟩
          · rw [if_pos rfl, List.cons_append, List.singleton_append, splitWhere_cons, if_pos gap,
              splitWhere_cons, own.lower_notGap, if_neg Bool.false_ne_true, split]
          · rw [List.nil_append, List.flatMap_cons, capitalized, upper_toLower capital,
              List.singleton_append, List.cons_append, joined]
      | false =>
          refine ⟨c :: piece, pieces, ?_, by rw [List.cons_append, joined]⟩
          rw [if_neg Bool.false_ne_true, List.singleton_append, splitWhere_cons, own.notGap,
            if_neg Bool.false_ne_true, split]

/-- Run together, the words of a name are the name again. -/
theorem pascalCase_separated {name : String} (gap : isWordGap separator)
    (pascal : isPascalName name.toList) :
    pascalCase (String.ofList (separatedFrom separator none name.toList)) = name := by
  obtain ⟨first, rest, chars, capital, ordinary⟩ := exists_cons_of_isPascalName pascal
  have own := ordinary_of_isUpper capital
  obtain ⟨piece, pieces, split, joined⟩ := exists_pieces_of_marked gap ordinary
  rw [chars, pascalCase, String.toList_ofList, separatedFrom_none gap own ordinary,
    splitWhere_cons, own.lower_notGap, if_neg Bool.false_ne_true, split]
  rw [List.flatMap_cons, capitalized, upper_toLower capital, List.singleton_append,
    List.cons_append, joined, ← chars, String.ofList_toList]

/-- The words of a name set apart are lower-case letters and digits around separators. -/
theorem forall_separated {name : List Char} (gap : isWordGap separator)
    (pascal : isPascalName name) :
    separatedFrom separator none name ≠ [] ∧ ∀ c ∈ separatedFrom separator none name,
      (c.isLower || c.isDigit || c == separator) := by
  obtain ⟨first, rest, rfl, capital, ordinary⟩ := exists_cons_of_isPascalName pascal
  have own := ordinary_of_isUpper capital
  rw [separatedFrom_none gap own ordinary]
  refine ⟨List.cons_ne_nil _ _, List.forall_mem_cons.mpr ⟨?_, fun c held => ?_⟩⟩
  · rw [own.lower_small, Bool.true_or]
  · obtain ⟨d, among, inside⟩ := List.mem_flatMap.mp held
    have small := (ordinary d among).lower_small
    rw [marked] at inside
    cases capital : d.isUpper with
    | true =>
        rw [capital, if_pos rfl] at inside
        rcases List.mem_cons.mp inside with rfl | last
        · simp
        · rw [List.mem_singleton.mp last, small, Bool.true_or]
    | false =>
        rw [capital, if_neg Bool.false_ne_true] at inside
        rw [(ordinary d among).lower_self capital] at small
        rw [List.mem_singleton.mp inside, small, Bool.true_or]

end BlockForge.Text
