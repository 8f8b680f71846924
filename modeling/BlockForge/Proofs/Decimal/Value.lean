/-
# Doubles as rational numbers

A magnitude counts units of the smallest positive double, and the number that it denotes is
this count divided by the number of units that make up one. Rational numbers are the common
ground on which doubles, integers and decimals are compared: no bound and no rounding of any
of the three formats enters into a comparison there.
-/

import BlockForge.Proofs.Decimal.Shortest
import Mathlib.Data.Rat.Floor
import Mathlib.Tactic.FieldSimp

namespace BlockForge

namespace Magnitude

-- The number of units is only divided by, and never computed.
seal unitsPerOne

theorem unitsPerOne_cast_pos : (0 : ℚ) < unitsPerOne := by
  exact_mod_cast unitsPerOne_pos

/-- The number that a magnitude denotes. -/
def value (x : Magnitude) : ℚ := x.units / unitsPerOne

theorem value_nonneg (x : Magnitude) : 0 ≤ x.value :=
  div_nonneg (Nat.cast_nonneg _) (Nat.cast_nonneg _)

/-- A magnitude denotes a natural number exactly if it is that many whole ones. -/
theorem value_eq_natCast_iff {x : Magnitude} {n : ℕ} :
    x.value = n ↔ x.units = n * unitsPerOne := by
  rw [value, div_eq_iff unitsPerOne_cast_pos.ne']
  norm_cast

/-- A magnitude has one form: two of them with as many units are the same. -/
theorem eq_of_units_eq {x y : Magnitude} (same : x.units = y.units) : x = y := by
  -- The mantissa of the smaller exponent would have to be twice a full one.
  have exponent_le {x y : Magnitude} (same : x.units = y.units) : y.exponent ≤ x.exponent := by
    apply Nat.le_of_not_lt
    intro less
    obtain ⟨more, moved⟩ := Nat.exists_eq_add_of_lt less
    have full : leastFull ≤ y.mantissa := y.canonical.2.2.resolve_left (by omega)
    have bits := x.canonical.1
    have grown : x.mantissa = y.mantissa * 2 ^ more * 2 := by
      apply Nat.eq_of_mul_eq_mul_right (Nat.two_pow_pos x.exponent)
      rw [← units_eq, same, units_eq, moved, Nat.pow_succ, Nat.pow_add]
      ring
    have least : y.mantissa ≤ y.mantissa * 2 ^ more :=
      Nat.le_mul_of_pos_right _ (Nat.two_pow_pos more)
    simp only [leastFull, mantissaBound] at full bits
    omega
  have exponents : x.exponent = y.exponent :=
    Nat.le_antisymm (exponent_le same.symm) (exponent_le same)
  have mantissas : x.mantissa = y.mantissa := by
    rw [units_eq, units_eq, exponents] at same
    exact Nat.eq_of_mul_eq_mul_right (Nat.two_pow_pos y.exponent) same
  cases x
  cases y
  cases exponents
  cases mantissas
  rfl

theorem eq_of_value_eq {x y : Magnitude} (same : x.value = y.value) : x = y := by
  rw [value, value, div_left_inj' unitsPerOne_cast_pos.ne'] at same
  exact eq_of_units_eq (Nat.cast_injective same)

/-- The whole part of a magnitude that denotes a natural number is this number. -/
theorem value_eq_natCast_iff_floor {x : Magnitude} {n : ℕ} :
    x.value = n ↔ x.isWhole = true ∧ x.floor = n := by
  rw [value_eq_natCast_iff, isWhole, floor, beq_iff_eq]
  constructor
  · intro units
    rw [units]
    exact ⟨Nat.mul_mod_left n unitsPerOne, Nat.mul_div_cancel n unitsPerOne_pos⟩
  · rintro ⟨whole, rfl⟩
    exact (Nat.div_mul_cancel (Nat.dvd_of_mod_eq_zero whole)).symm

end Magnitude

namespace Binary64

/-- The number that a double denotes, if it denotes one. -/
def value? : Binary64 → Option ℚ
  | finite negative x => some (if negative then -x.value else x.value)
  | _ => none

/-- Only zero is denoted by two doubles. -/
theorem eq_of_value? {x y : Binary64} {q : ℚ} (first : x.value? = some q)
    (second : y.value? = some q) (nonzero : q ≠ 0) : x = y := by
  have parts {x : Binary64} (denotes : x.value? = some q) :
      ∃ m : Magnitude, x = finite (q < 0) m ∧ m.value = |q| := by
    cases x with
    | nan => cases denotes
    | infinite negative => cases denotes
    | finite negative m =>
        have least := m.value_nonneg
        rw [value?, Option.some.injEq] at denotes
        refine ⟨m, ?_, ?_⟩
        · congr 1
          symm
          cases negative with
          | true =>
              rw [if_pos rfl] at denotes
              apply decide_eq_true
              exact lt_of_le_of_ne (by linarith) nonzero
          | false =>
              rw [if_neg Bool.false_ne_true] at denotes
              apply decide_eq_false
              linarith
        · rw [← denotes]
          split
          · rw [abs_neg, abs_of_nonneg least]
          · rw [abs_of_nonneg least]
  obtain ⟨m, rfl, size⟩ := parts first
  obtain ⟨n, rfl, sameSize⟩ := parts second
  rw [Magnitude.eq_of_value_eq (size.trans sameSize.symm)]

theorem toInt?_finite (negative : Bool) (x : Magnitude) {i : ℤ} :
    (finite negative x).toInt? = some i ↔
      x.isWhole = true ∧ (if negative then -(x.floor : ℤ) else x.floor) = i := by
  rw [toInt?]
  split
  · rename_i whole
    rw [Option.some.injEq]
    exact (and_iff_right whole).symm
  · rename_i broken
    exact iff_of_false nofun fun both => broken both.1

/-- A double is taken for an integer exactly if it denotes this integer. -/
theorem toInt?_eq_some_iff {x : Binary64} {i : ℤ} :
    x.toInt? = some i ↔ x.value? = some (i : ℚ) := by
  cases x with
  | nan => exact iff_of_false nofun nofun
  | infinite negative => exact iff_of_false nofun nofun
  | finite negative x =>
      have nonneg : 0 ≤ x.value := x.value_nonneg
      rw [toInt?_finite, value?, Option.some.injEq]
      constructor
      · rintro ⟨whole, rfl⟩
        have value : x.value = x.floor := Magnitude.value_eq_natCast_iff_floor.mpr ⟨whole, rfl⟩
        rw [value]
        split <;> push_cast <;> rfl
      · intro value
        -- The magnitude has no sign, so it denotes the integer without its sign.
        have unsigned : x.value = i.natAbs := by
          rw [Nat.cast_natAbs]
          push_cast
          rw [← value]
          split
          · rw [abs_neg, abs_of_nonneg nonneg]
          · rw [abs_of_nonneg nonneg]
        obtain ⟨whole, floored⟩ := Magnitude.value_eq_natCast_iff_floor.mp unsigned
        refine ⟨whole, ?_⟩
        rw [floored]
        split
        · rename_i negative
          rw [if_pos negative] at value
          have least : (i : ℚ) ≤ 0 := by linarith
          have bound : i ≤ 0 := by exact_mod_cast least
          omega
        · rename_i positive
          rw [if_neg positive] at value
          have most : (0 : ℚ) ≤ i := by linarith
          have bound : 0 ≤ i := by exact_mod_cast most
          omega

end Binary64

end BlockForge
