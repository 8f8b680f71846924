/-
# Names as patterns

The names of blocks, templates and fields and the codes of blocks have forms that are told by
regular expressions. The recognisers of these forms go through a name once, from the front. Here
each of them is shown to accept exactly the language of its expression.
-/

import BlockForge.Block.Validation
import Mathlib.Computability.RegularExpressions

namespace BlockForge.Pattern

open RegularExpression

variable {chars text : List Char} {pattern : RegularExpression Char}

/-! ## Expressions -/

/-- The characters from one to another. -/
def span (first last : Char) : List Char :=
  (List.range' first.toNat (last.toNat + 1 - first.toNat)).map Char.ofNat

def oneOf (chars : List Char) : RegularExpression Char := (chars.map char).sum

/-- At least one character of a list. -/
def several (chars : List Char) : RegularExpression Char := oneOf chars * (oneOf chars).star

def word (text : List Char) : RegularExpression Char := (text.map char).prod

theorem mem_char {c : Char} : text ∈ (char c).matches' ↔ text = [c] := Iff.rfl

theorem mem_oneOf : text ∈ (oneOf chars).matches' ↔ ∃ c ∈ chars, text = [c] := by
  induction chars with
  | nil => simp [oneOf]
  | cons c others ih =>
      have step : oneOf (c :: others) = char c + oneOf others := by simp [oneOf]
      rw [step, matches'_add, Language.mem_add, mem_char, ih, List.exists_mem_cons_iff]

/-- One of several characters and then more of a pattern. -/
theorem mem_oneOf_mul : text ∈ (oneOf chars * pattern).matches' ↔
    ∃ c ∈ chars, ∃ rest ∈ pattern.matches', text = c :: rest := by
  simp only [matches'_mul, Language.mem_mul, mem_oneOf]
  constructor
  · rintro ⟨front, ⟨c, among, rfl⟩, rest, held, rfl⟩
    exact ⟨c, among, rest, held, rfl⟩
  · rintro ⟨c, among, rest, held, rfl⟩
    exact ⟨[c], ⟨c, among, rfl⟩, rest, held, rfl⟩

/-- Any number of characters are from a list if each of them is. -/
theorem mem_star_oneOf : text ∈ (oneOf chars).star.matches' ↔ ∀ c ∈ text, c ∈ chars := by
  simp only [matches'_star, Language.mem_kstar, mem_oneOf]
  constructor
  · rintro ⟨pieces, rfl, single⟩ c held
    obtain ⟨piece, among, inside⟩ := List.mem_flatten.mp held
    obtain ⟨only, own, rfl⟩ := single piece among
    rwa [List.mem_singleton.mp inside]
  · intro all
    refine ⟨text.map ([·]), ?_, ?_⟩
    · rw [← List.flatMap_def, List.flatMap_singleton']
    · intro piece among
      obtain ⟨c, held, rfl⟩ := List.mem_map.mp among
      exact ⟨c, all c held, rfl⟩

theorem mem_word {front : List Char} : text ∈ (word front).matches' ↔ text = front := by
  induction front generalizing text with
  | nil => simp [word, Language.mem_one]
  | cons c front ih =>
      have step : word (c :: front) = char c * word front := by simp [word]
      simp only [step, matches'_mul, Language.mem_mul, mem_char, ih]
      simp [eq_comm]

/-- A text and then more of a pattern. -/
theorem mem_word_mul {front : List Char} : text ∈ (word front * pattern).matches' ↔
    ∃ rest ∈ pattern.matches', text = front ++ rest := by
  simp only [matches'_mul, Language.mem_mul, mem_word]
  simp [eq_comm]

/-- A pattern and then a text. -/
theorem mem_mul_word {back : List Char} : text ∈ (pattern * word back).matches' ↔
    ∃ front ∈ pattern.matches', text = front ++ back := by
  simp only [matches'_mul, Language.mem_mul, mem_word]
  simp [eq_comm]

theorem mem_several : text ∈ (several chars).matches' ↔ text ≠ [] ∧ ∀ c ∈ text, c ∈ chars := by
  simp only [several, mem_oneOf_mul, mem_star_oneOf]
  constructor
  · rintro ⟨c, among, rest, all, rfl⟩
    exact ⟨List.cons_ne_nil c rest, List.forall_mem_cons.mpr ⟨among, all⟩⟩
  · rintro ⟨there, all⟩
    obtain ⟨c, rest, rfl⟩ := List.exists_cons_of_ne_nil there
    exact ⟨c, all c List.mem_cons_self, rest, (List.forall_mem_cons.mp all).2, rfl⟩

/-! ## Classes of characters -/

def upper : List Char := span 'A' 'Z'

def lower : List Char := span 'a' 'z'

def digits : List Char := span '0' '9'

theorem toNat_ofNat {n : Nat} (small : n < 0xd800) : (Char.ofNat n).toNat = n := by
  rw [Char.ofNat, dif_pos (.inl small)]
  rfl

theorem mem_span {first last c : Char} (small : last.toNat < 0xd800) :
    c ∈ span first last ↔ first.toNat ≤ c.toNat ∧ c.toNat ≤ last.toNat := by
  simp only [span, List.mem_map, List.mem_range'_1]
  constructor
  · rintro ⟨n, bounds, rfl⟩
    rw [toNat_ofNat (by omega)]
    omega
  · rintro bounds
    exact ⟨c.toNat, by omega, Char.ofNat_toNat c⟩

theorem mem_upper {c : Char} : c ∈ upper ↔ c.isUpper := by
  show _ ↔ decide (c.val ≥ 'A'.val ∧ c.val ≤ 'Z'.val) = true
  rw [upper, mem_span (by decide), decide_eq_true_eq]
  exact Iff.rfl

theorem mem_lower {c : Char} : c ∈ lower ↔ c.isLower := by
  show _ ↔ (decide (c.val ≥ 'a'.val) && decide (c.val ≤ 'z'.val)) = true
  rw [lower, mem_span (by decide), Bool.and_eq_true, decide_eq_true_eq, decide_eq_true_eq]
  exact Iff.rfl

theorem mem_digits {c : Char} : c ∈ digits ↔ c.isDigit := by
  show _ ↔ (decide (c.val ≥ '0'.val) && decide (c.val ≤ '9'.val)) = true
  rw [digits, mem_span (by decide), Bool.and_eq_true, decide_eq_true_eq, decide_eq_true_eq]
  exact Iff.rfl

theorem mem_letters_digits {c : Char} : c ∈ upper ++ lower ++ digits ↔ c.isAlphanum := by
  show _ ↔ (c.isUpper || c.isLower || c.isDigit) = true
  simp [mem_upper, mem_lower, mem_digits, or_assoc]

theorem mem_snake {c : Char} : c ∈ lower ++ digits ++ ['_'] ↔ isSnakeChar c := by
  simp [mem_lower, mem_digits, isSnakeChar, or_assoc]

theorem mem_kebab {c : Char} : c ∈ lower ++ digits ++ ['-'] ↔ isKebabChar c := by
  simp [mem_lower, mem_digits, isKebabChar, or_assoc]

/-! ## Forms of names -/

/-- `[A-Z][A-Za-z0-9]*` -/
def blockName : RegularExpression Char := oneOf upper * (oneOf (upper ++ lower ++ digits)).star

/-- `[a-z][a-z0-9_]*` -/
def fieldName : RegularExpression Char := oneOf lower * (oneOf (lower ++ digits ++ ['_'])).star

/-- `[a-z0-9-]+\.tpl` -/
def template : RegularExpression Char :=
  several (lower ++ digits ++ ['-']) * word ".tpl".toList

/-- `cpb_[a-z0-9_]+` -/
def code : RegularExpression Char :=
  word "cpb_".toList * several (lower ++ digits ++ ['_'])

theorem isPascalName_iff : isPascalName text ↔ text ∈ blockName.matches' := by
  simp only [blockName, mem_oneOf_mul, mem_star_oneOf, mem_upper, mem_letters_digits]
  cases text <;> simp [isPascalName]

theorem isSnakeName_iff : isSnakeName text ↔ text ∈ fieldName.matches' := by
  simp only [fieldName, mem_oneOf_mul, mem_star_oneOf, mem_lower, mem_snake]
  cases text <;> simp [isSnakeName]

theorem isTemplateName_iff : isTemplateName text ↔ text ∈ template.matches' := by
  simp only [template, mem_mul_word, mem_several, mem_kebab]
  constructor
  · intro formed
    rw [isTemplateName] at formed
    split at formed
    · rename_i stem cut
      exact ⟨stem, by simpa using formed, (List.isSuffixOf?_eq_some_iff_append_eq.mp cut).symm⟩
    · cases formed
  · rintro ⟨stem, formed, rfl⟩
    have cut : templateSuffix.isSuffixOf? (stem ++ ".tpl".toList) = some stem :=
      List.isSuffixOf?_eq_some_iff_append_eq.mpr rfl
    rw [isTemplateName, cut]
    simpa using formed

theorem isBlockCode_iff : isBlockCode text ↔ text ∈ code.matches' := by
  simp only [code, mem_word_mul, mem_several, mem_snake]
  constructor
  · intro formed
    rw [isBlockCode] at formed
    split at formed
    · rename_i rest cut
      exact ⟨rest, by simpa using formed, (List.isPrefixOf?_eq_some_iff_append_eq.mp cut).symm⟩
    · cases formed
  · rintro ⟨rest, formed, rfl⟩
    have cut : codeMark.isPrefixOf? ("cpb_".toList ++ rest) = some rest :=
      List.isPrefixOf?_eq_some_iff_append_eq.mpr rfl
    rw [isBlockCode, cut]
    simpa using formed

end BlockForge.Pattern
