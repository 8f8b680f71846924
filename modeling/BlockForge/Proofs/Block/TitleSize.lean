/-
# Sizes of titles

The size of a title is an integer of 64 bits, and a source may write it as an integer or as a
double. What counts is the number that is written: a size is read exactly if this number is an
integer of 64 bits, and it is this integer, so the two ways of writing one are accepted or
refused alike.

One double is left out. The test of a double compares its magnitude with the bound of the
positive integers, and the least integer has the magnitude that this bound excludes. It is
refused as a double and accepted as an integer.
-/

import BlockForge.Block.Attributes
import BlockForge.Decimal.Notation
import BlockForge.Json.Lexeme
import BlockForge.Proofs.Decimal.Value

namespace BlockForge

open Json Block

/-- The number that a number of a source denotes, if it denotes one. -/
def Json.Number.value? : Number → Option ℚ
  | .unsigned n => some n
  | .signed i => some i
  | .float x => x.value?

def leastSigned64 : ℤ := -9223372036854775808

/-- The double that denotes the least integer of 64 bits. -/
def doubleOfLeast : Binary64 := .finite true ⟨leastFull, 1085, by decide⟩

/-- An object with a size and nothing else, where a title is asked for. -/
def sizedTitle (n : Number) : Value := .object [("size", .number n)]

theorem value?_doubleOfLeast : doubleOfLeast.value? = some (leastSigned64 : ℚ) := by
  apply Binary64.toInt?_eq_some_iff.mp
  decide +kernel

/-- A double is read exactly if it denotes an integer of 64 bits and is not the double of the
least one. -/
theorem readInteger_float_eq_ok_iff {x : Binary64} {i : ℤ} :
    readInteger (.number (.float x)) = .ok i ↔
      x ≠ doubleOfLeast ∧ x.value? = some (i : ℚ) ∧ fitsSigned64 i := by
  have whole : readInteger (.number (.float x)) = .ok i ↔
      x.toInt? = some i ∧ fitsSigned64 i.natAbs := by
    rw [readInteger, wholeInt64?]
    cases x.toInt? with
    | none => exact iff_of_false nofun nofun
    | some j =>
        dsimp only
        split
        · grind
        · grind
  have bounds : fitsSigned64 i.natAbs ↔ i ≠ leastSigned64 ∧ fitsSigned64 i := by
    simp only [fitsSigned64, leastSigned64, Bool.and_eq_true, decide_eq_true_eq]
    omega
  rw [whole, bounds, Binary64.toInt?_eq_some_iff]
  constructor
  · rintro ⟨denotes, other, fits⟩
    refine ⟨?_, denotes, fits⟩
    rintro rfl
    rw [value?_doubleOfLeast, Option.some.injEq] at denotes
    exact other (by exact_mod_cast denotes.symm)
  · rintro ⟨other, denotes, fits⟩
    refine ⟨denotes, ?_, fits⟩
    rintro rfl
    exact other (Binary64.eq_of_value? denotes value?_doubleOfLeast (by decide))

/-- A number is read exactly if it denotes an integer of 64 bits and is not the double of the
least one. -/
theorem readInteger_eq_ok_iff {n : Number} {i : ℤ} :
    readInteger (.number n) = .ok i ↔
      n ≠ .float doubleOfLeast ∧ n.value? = some (i : ℚ) ∧ fitsSigned64 i := by
  -- An integer is read if it fits, and it denotes itself.
  have integral {read : Except Refusal ℤ} {j : ℤ} {refusal : Refusal}
      (reads : read = if fitsSigned64 j then .ok j else .error refusal) :
      read = .ok i ↔ (j : ℚ) = i ∧ fitsSigned64 i := by
    rw [reads, Int.cast_inj]
    constructor
    · intro accepted
      split at accepted
      · rename_i fits
        cases accepted
        exact ⟨rfl, fits⟩
      · cases accepted
    · rintro ⟨rfl, fits⟩
      rw [if_pos fits]
  cases n with
  | unsigned n =>
      have reads := @integral (readInteger (.number (.unsigned n))) n _ rfl
      rw [reads, Number.value?, Option.some.injEq, Int.cast_natCast]
      exact (and_iff_right nofun).symm
  | signed j =>
      have reads := @integral (readInteger (.number (.signed j))) j _ rfl
      rw [reads, Number.value?, Option.some.injEq]
      exact (and_iff_right nofun).symm
  | float x =>
      rw [readInteger_float_eq_ok_iff, Number.value?, Ne, Ne, Number.float.injEq]

/-- A title of which only the size is given has the size that is read. -/
theorem readTitle_sizedTitle (n : Number) :
    readTitle (sizedTitle n) =
      (readInteger (.number n)).map fun size => ({ size := size } : TitleDefault) := by
  rw [sizedTitle, readTitle, foldAttributes, TitleDraft.take, fillSlot]
  cases readInteger (.number n) with
  | error refusal => rfl
  | ok size => rfl

/-- A size is read exactly if its number denotes an integer of 64 bits, and is this integer then;
only the double of the least integer is refused. So two ways of writing one number are accepted
or refused alike and give the same title, as long as neither of them is this double. -/
theorem titleSize_read_exactly (n : Number) :
    (∀ title, readTitle (sizedTitle n) = .ok title ↔
      n ≠ .float doubleOfLeast ∧
        ∃ size : ℤ, n.value? = some (size : ℚ) ∧ fitsSigned64 size ∧ title = { size := size }) ∧
    ∀ m : Number, n.value? = m.value? → n ≠ .float doubleOfLeast → m ≠ .float doubleOfLeast →
      (readTitle (sizedTitle n)).toOption = (readTitle (sizedTitle m)).toOption := by
  constructor
  · intro title
    rw [readTitle_sizedTitle]
    constructor
    · intro accepted
      cases read : readInteger (.number n) with
      | error refusal =>
          rw [read] at accepted
          cases accepted
      | ok size =>
          rw [read] at accepted
          cases accepted
          obtain ⟨other, denotes, fits⟩ := readInteger_eq_ok_iff.mp read
          exact ⟨other, size, denotes, fits, rfl⟩
    · rintro ⟨other, size, denotes, fits, rfl⟩
      rw [readInteger_eq_ok_iff.mpr ⟨other, denotes, fits⟩]
      rfl
  · intro m same nOther mOther
    have alike (size : ℤ) :
        readInteger (.number n) = .ok size ↔ readInteger (.number m) = .ok size := by
      rw [readInteger_eq_ok_iff, readInteger_eq_ok_iff, same, and_iff_right nOther,
        and_iff_right mOther]
    rw [readTitle_sizedTitle, readTitle_sizedTitle]
    cases first : readInteger (.number n) with
    | ok size => rw [(alike size).mp first]
    | error refusal =>
        cases second : readInteger (.number m) with
        | error other => rfl
        | ok size =>
            rw [(alike size).mpr second] at first
            cases first

/-- Twenty-four as a double and as an integer. -/
theorem titleSize_read_exactly_twentyFour :
    readTitle (sizedTitle (.float (.ofInt 24))) = .ok { size := 24 } ∧
      (readTitle (sizedTitle (.float (.ofInt 24)))).toOption =
        (readTitle (sizedTitle (.unsigned 24))).toOption := by
  obtain ⟨read_iff, alike⟩ := titleSize_read_exactly (.float (.ofInt 24))
  have whole : (Binary64.ofInt 24).toInt? = some 24 := by decide +kernel
  have denotes : (Number.float (.ofInt 24)).value? = some ((24 : ℤ) : ℚ) := by
    rw [Number.value?]
    exact Binary64.toInt?_eq_some_iff.mp whole
  have other : Number.float (.ofInt 24) ≠ .float doubleOfLeast := by decide +kernel
  have same : (Number.float (.ofInt 24)).value? = (Number.unsigned 24).value? := by
    rw [denotes, Number.value?]
    norm_num
  exact ⟨(read_iff _).mpr ⟨other, 24, denotes, by decide, rfl⟩, alike _ same other nofun⟩

/-- The least integer is refused where its text has a fraction, and accepted where it has none. -/
theorem leastSize_refused_with_fraction :
    (readNumber ⟨"-9223372036854775808.0".toList, 0⟩).toOption.map (·.1) =
        some (.float doubleOfLeast) ∧
      (Number.float doubleOfLeast).value? = (Number.signed leastSigned64).value? ∧
      (readTitle (sizedTitle (.float doubleOfLeast))).toOption = none ∧
      (readTitle (sizedTitle (.signed leastSigned64))).toOption =
        some { size := leastSigned64 } := by
  refine ⟨?_, value?_doubleOfLeast, ?_, ?_⟩
  · decide +kernel
  · decide +kernel
  · decide +kernel

end BlockForge
