/-
# Timestamps read back

A stored timestamp has a fixed number of digits in every field but the year, with marks between
them that are no digits, and no blank anywhere. So the lenient reader takes exactly the fields that
were written. A leap second is written as the 60th and comes back as the last second of its minute
with a billion nanoseconds more.
-/

import BlockForge.Proofs.Json.Numeral
import BlockForge.Time.Reading
import Mathlib.Data.Nat.Digits.Defs

namespace BlockForge.Timestamp

open BlockForge.Json (AllDigits)
open BlockForge.Text (isBlank trimStart)

/-! ## Fields -/

theorem allDigits_paddedChars (width n : Nat) : AllDigits (paddedChars width n) :=
  (Json.isDigit_zeros _).append (Json.allDigits_natChars n)

theorem digitsValue_paddedChars (width n : Nat) : digitsValue (paddedChars width n) = n := by
  rw [paddedChars, Json.digitsValue_zeros_append]
  exact digitsValue_toDigits n

theorem length_paddedChars {width n : Nat} (positive : 0 < width) (fits : n < 10 ^ width) :
    (paddedChars width n).length = width := by
  have short : (natChars n).length ≤ width := Nat.toDigits_length 10 n width positive fits
  rw [paddedChars, List.length_append, List.length_replicate]
  omega

theorem paddedChars_ne_nil (width n : Nat) : paddedChars width n ≠ [] := by
  rw [paddedChars, Ne, List.append_eq_nil_iff]
  exact fun none => Nat.toDigits_ne_nil none.2

/-- A row of digits that is as long as may be read is read. -/
theorem digits_append {row : List Char} (all : AllDigits row) (nonempty : row ≠ []) {width : Nat}
    {rest : List Char} (ends : row.length = width ∨
      (row.length ≤ width ∧ rest.head?.any Char.isDigit = false)) :
    digits width (row ++ rest) = .ok (digitsValue row, rest) := by
  have taken : ((row ++ rest).take width).takeWhile Char.isDigit = row := by
    rcases ends with exact | ⟨short, stops⟩
    · rw [← exact, List.take_left, List.takeWhile_eq_self_iff]
      exact all
    · rw [List.take_append, List.take_of_length_le short]
      refine (Json.takeWhile_digits all ?_).1
      cases rest with
      | nil => simp
      | cons c more => cases width - row.length with
        | zero => rfl
        | succ n => exact stops
  obtain ⟨c, more, rfl⟩ := List.exists_cons_of_ne_nil nonempty
  rw [List.cons_append] at taken ⊢
  rw [digits, if_pos (all c List.mem_cons_self), taken, ← List.cons_append]
  exact congrArg (fun after => Except.ok (_, after)) List.drop_left

theorem isBlank_digit {c : Char} (digit : c.isDigit) : isBlank c = false := by
  simp only [Char.isDigit, Bool.and_eq_true, decide_eq_true_eq, UInt32.le_iff_toNat_le] at digit
  have least : 48 ≤ c.toNat := digit.1
  have greatest : c.toNat ≤ 57 := digit.2
  simp [isBlank, Text.blankRanges]
  omega

theorem trimStart_cons {c : Char} (visible : isBlank c = false) (rest : List Char) :
    trimStart (c :: rest) = c :: rest := by
  rw [trimStart, List.dropWhile_cons, visible, if_neg Bool.false_ne_true]

theorem trimStart_digits {row : List Char} (all : AllDigits row) (nonempty : row ≠ [])
    (rest : List Char) : trimStart (row ++ rest) = row ++ rest := by
  obtain ⟨c, more, rfl⟩ := List.exists_cons_of_ne_nil nonempty
  exact trimStart_cons (isBlank_digit (all c List.mem_cons_self)) _

theorem digits_paddedChars {width n : Nat} (positive : 0 < width) (fits : n < 10 ^ width)
    (rest : List Char) : digits width (paddedChars width n ++ rest) = .ok (n, rest) := by
  rw [digits_append (allDigits_paddedChars width n) (paddedChars_ne_nil width n)
    (.inl (length_paddedChars positive fits)), digitsValue_paddedChars]

theorem field_paddedChars {n least greatest : Nat} (atLeast : least ≤ n) (atMost : n ≤ greatest)
    (short : greatest < 100) (rest : List Char) :
    field least greatest (paddedChars 2 n ++ rest) = .ok (n, rest) := by
  rw [field, trimStart_digits (allDigits_paddedChars 2 n) (paddedChars_ne_nil 2 n),
    digits_paddedChars (by decide) (by omega)]
  show (if least ≤ n ∧ n ≤ greatest then _ else _) = _
  rw [if_pos ⟨atLeast, atMost⟩]
  rfl

theorem mark_cons {c : Char} (visible : isBlank c = false) (rest : List Char) :
    mark c (c :: rest) = .ok rest := by
  rw [mark, trimStart_cons visible]
  exact if_pos rfl

/-! ## Years -/

theorem year_yearChars {y : Int} (bounded : -262143 ≤ y ∧ y ≤ 262142) {rest : List Char}
    (ends : rest.head?.any Char.isDigit = false) : year (yearChars y ++ rest) = .ok (y, rest) := by
  have inside : -2147483648 ≤ y ∧ y ≤ 2147483647 := by omega
  have all := allDigits_paddedChars 4 y.natAbs
  have nonempty := paddedChars_ne_nil 4 y.natAbs
  have value := digitsValue_paddedChars 4 y.natAbs
  rw [yearChars]
  split
  · rename_i plain
    have read := digits_paddedChars (by decide : 0 < 4) (by omega : y.natAbs < 10 ^ 4) rest
    have same : (y.natAbs : Int) = y := by omega
    rw [year, trimStart_digits all nonempty]
    obtain ⟨c, more, row⟩ := List.exists_cons_of_ne_nil nonempty
    rw [row] at all read ⊢
    have digit : c.isDigit := all c List.mem_cons_self
    split
    · rename_i sign
      rw [(List.cons.inj sign).1] at digit
      cases digit
    · rename_i sign
      rw [(List.cons.inj sign).1] at digit
      cases digit
    · rw [read]
      show (if _ then _ else _) = _
      rw [same, if_pos inside]
      rfl
  · have read := digits_append all nonempty
      (.inr ⟨(List.sublist_append_left _ rest).length_le, ends⟩)
    rw [value] at read
    by_cases negative : y < 0
    · have same : -(y.natAbs : Int) = y := by omega
      rw [if_pos negative, List.cons_append, year, trimStart_cons rfl]
      simp only [read]
      show (if _ then _ else _) = _
      rw [same, if_pos inside]
      rfl
    · have same : (y.natAbs : Int) = y := by omega
      rw [if_neg negative, List.cons_append, year, trimStart_cons rfl]
      simp only [read]
      show (if _ then _ else _) = _
      rw [same, if_pos inside]
      rfl

/-! ## Fractions -/

theorem fraction_point {width n : Nat} (positive : 0 < width) (few : width ≤ 9) (fits : n < 10 ^ width)
    {rest : List Char} (ends : rest.head?.any Char.isDigit = false) :
    fraction ('.' :: (paddedChars width n ++ rest)) = .ok (n * 10 ^ (9 - width), rest) := by
  have all := allDigits_paddedChars width n
  have length := length_paddedChars positive fits
  have read := digits_append all (paddedChars_ne_nil width n)
    (.inr ⟨length.trans_le few, ends⟩)
  rw [digitsValue_paddedChars] at read
  have dropped : rest.dropWhile Char.isDigit = rest := by
    cases rest with
    | nil => rfl
    | cons c more => exact List.dropWhile_cons_of_neg (Bool.eq_false_iff.mp ends)
  have count : (paddedChars width n ++ rest).length - rest.length = width := by
    rw [List.length_append, length, Nat.add_sub_cancel]
  rw [fraction, read]
  show Except.ok (n * Nat.pow 10 (9 - ((paddedChars width n ++ rest).length - rest.length)), _) = _
  rw [count, dropped]
  rfl

theorem fraction_fractionChars (t : Timestamp) {rest : List Char}
    (ends : rest.head?.any Char.isDigit = false) (noPoint : rest.head? ≠ some '.') :
    fraction (t.fractionChars ++ rest) = .ok (t.nano % nanosPerSecond, rest) := by
  have below : t.nano % nanosPerSecond < 1000000000 := Nat.mod_lt _ (by decide)
  rw [fractionChars]
  split
  · rename_i none
    rw [none, List.nil_append, fraction.eq_def]
    split
    · exact absurd rfl noPoint
    · rfl
  · split
    · rename_i millions
      have whole := Nat.div_mul_cancel (Nat.dvd_of_mod_eq_zero millions)
      rw [List.cons_append, fraction_point (by decide) (by decide) (by omega) ends]
      exact congrArg (fun n => Except.ok (n, rest)) whole
    · split
      · rename_i thousands
        have whole := Nat.div_mul_cancel (Nat.dvd_of_mod_eq_zero thousands)
        rw [List.cons_append, fraction_point (by decide) (by decide) (by omega) ends]
        exact congrArg (fun n => Except.ok (n, rest)) whole
      · rw [List.cons_append, fraction_point (by decide) (by decide) below ends, Nat.pow_zero,
          Nat.mul_one]

/-! ## Timestamps -/

theorem daysOfMonth_le (year : Int) (month : Nat) : daysOfMonth year month ≤ 31 := by
  rw [daysOfMonth]
  split
  · split <;> decide
  · split <;> decide

theorem toList_storedText (t : Timestamp) : t.storedText.toList =
    yearChars t.date.year ++ ('-' :: (paddedChars 2 t.date.month ++ ('-' ::
      (paddedChars 2 t.date.day ++ ('T' :: (paddedChars 2 t.hour ++ (':' ::
        (paddedChars 2 t.minute ++ (':' :: (paddedChars 2 (t.second + t.nano / nanosPerSecond) ++
          (t.fractionChars ++ ['Z'])))))))))))  := by
  simp [storedText, plainChars, dateChars, clockChars]

theorem ofFields?_date (date : Date) : Date.ofFields? date.year date.month date.day = some date := by
  rw [Date.ofFields?, dif_pos date.exists_day]

/-- A leap second is told from the second that is written. -/
theorem leap_kept (t : Timestamp) :
    min (t.second + t.nano / nanosPerSecond) 59 = t.second ∧
    (t.nano % nanosPerSecond + if t.second + t.nano / nanosPerSecond = 60 then nanosPerSecond else 0) =
      t.nano := by
  obtain ⟨-, -, seconds, nanos⟩ := t.exists_time
  simp only [nanosPerSecond] at nanos ⊢
  split <;> omega

theorem ofLocal?_universal (t : Timestamp) :
    ofLocal? t.date t.hour t.minute t.second t.nano 0 = some t := by
  obtain ⟨hours, minutes, -⟩ := t.exists_time
  have sameHour : (60 * (t.hour : Int) + t.minute - 0).toNat / 60 = t.hour := by omega
  have sameMinute : (60 * (t.hour : Int) + t.minute - 0).toNat % 60 = t.minute := by omega
  simp only [ofLocal?]
  rw [if_neg (by omega), if_neg (by omega), Option.bind_some, sameHour, sameMinute, ofFields?,
    dif_pos t.exists_time]

/-- A timestamp is read from what it is stored as. -/
theorem ofText_storedText (t : Timestamp) : ofText t.storedText.toList = .ok t := by
  obtain ⟨bounded, ⟨firstMonth, lastMonth⟩, firstDay, lastDay⟩ := t.date.exists_day
  obtain ⟨hours, minutes, seconds, nanos⟩ := t.exists_time
  have inMonth : t.date.day ≤ 31 := Nat.le_trans lastDay (daysOfMonth_le _ _)
  simp only [nanosPerSecond] at nanos
  have second : t.second + t.nano / nanosPerSecond ≤ 60 := by
    rw [nanosPerSecond]
    omega
  rw [toList_storedText, ofText, year_yearChars bounded (by rfl)]
  simp only [bind, Except.bind, mark_cons (by rfl : isBlank '-' = false),
    mark_cons (by rfl : isBlank ':' = false), timeMark,
    field_paddedChars firstMonth lastMonth (by decide), field_paddedChars firstDay inMonth (by decide),
    field_paddedChars (Nat.zero_le _) (Nat.le_of_lt_succ hours) (by decide),
    field_paddedChars (Nat.zero_le _) (Nat.le_of_lt_succ minutes) (by decide),
    field_paddedChars (Nat.zero_le _) second (by decide),
    fraction_fractionChars t (by rfl : ['Z'].head?.any Char.isDigit = false) (by decide)]
  have offset : offset (trimStart ['Z']) = .ok (0, []) := rfl
  have ends : (trimStart []).isEmpty = true := rfl
  simp only [offset, ends, ofFields?_date, leap_kept t, ofLocal?_universal, if_true]
  rfl

end BlockForge.Timestamp
