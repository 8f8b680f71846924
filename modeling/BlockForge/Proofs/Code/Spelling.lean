/-
# Numbers as the block editor spells them

The block editor writes a number from its shortest digits and its decimal exponent: without a power
of ten if at most twenty-one digits stand before the point and at most five zeros behind it, and
with a power of ten and its sign otherwise. Generated code has the same text for every double,
although it decides between the two by comparing doubles. A finite double is read from its text
again, with zero as the only one that loses a sign.
-/

import BlockForge.Code.Literal
import BlockForge.Proofs.Decimal.Fewest
import BlockForge.Proofs.Decimal.Reading
import BlockForge.Proofs.Json.Numeral

namespace BlockForge.Code

open Magnitude

/-! ## The spelling -/

/-- What the block editor writes for digits with a decimal exponent. -/
def editorChars (d : Digits) : List Char :=
  let count : Int := d.digits.length
  if -6 < d.point ∧ d.point ≤ 21 then
    if count ≤ d.point then d.digits ++ List.replicate (d.point - count).toNat '0'
    else if 0 < d.point then d.digits.take d.point.toNat ++ '.' :: d.digits.drop d.point.toNat
    else '0' :: '.' :: (List.replicate (-d.point).toNat '0' ++ d.digits)
  else
    let power := (if d.point - 1 < 0 then '-' else '+') :: natChars (d.point - 1).natAbs
    if count = 1 then d.digits ++ 'e' :: power
    else d.digits.take 1 ++ '.' :: (d.digits.drop 1 ++ 'e' :: power)

/-- What the block editor writes for a double, given the digits that stand for its magnitude. -/
def editorText (digits : Magnitude → Digits) : Binary64 → List Char
  | .nan => "NaN".toList
  | .infinite negative => signChars negative ++ "Infinity".toList
  | .finite negative x =>
    if x.isZero then ['0'] else signChars negative ++ editorChars (digits x)

/-! ## The choice of the notation -/

def millionth : Magnitude := ⟨4722366482869645, 1002, by decide⟩

def sextillion : Magnitude := ⟨7629394531250000, 1091, by decide⟩

theorem millionth_spec :
    ofRatio? 1 1000000 = some millionth ∧ (millionth.shortest .away).point = -5 := by
  decide +kernel

theorem sextillion_spec :
    ofRatio? 1000000000000000000000 1 = some sextillion ∧
      sextillion.units = 1000000000000000000000 * unitsPerOne ∧
      (sextillion.shortest .away).point = 22 := by
  decide +kernel

/-- A number is written without a power of ten exactly if its shortest digits leave it room. -/
theorem isPlainMagnitude_iff {x : Magnitude} (nonzero : x.isZero = false) :
    isPlainMagnitude x ↔ -6 < (x.shortest .away).point ∧ (x.shortest .away).point ≤ 21 := by
  obtain ⟨least, leastPoint⟩ := millionth_spec
  obtain ⟨bound, boundUnits, boundPoint⟩ := sextillion_spec
  have small : (10 : ℚ) ^ (-6 : ℤ) ∈ millionth.interval := by
    have near := (ofRatio?_eq_some_iff (by decide)).mp least
    norm_num at near ⊢
    exact near
  have large : (10 : ℚ) ^ (21 : ℤ) ∈ sextillion.interval := by
    have near := (ofRatio?_eq_some_iff (by decide)).mp bound
    norm_num at near ⊢
    exact near
  have above := lt_point_iff small (by rw [leastPoint]; decide) nonzero
  have below := lt_point_iff large (by rw [boundPoint]; decide) nonzero
  rw [isPlainMagnitude, least, Option.any_some, atMost, Bool.and_eq_true, decide_eq_true_eq,
    decide_eq_true_eq, ← boundUnits, above, ← not_le, ← below, not_lt]

section Notation

variable {d : Digits} (nonempty : d.digits ≠ [])

include nonempty

theorem plain_eq_editorChars (inside : -6 < d.point ∧ d.point ≤ 21) :
    d.plain false = editorChars d := by
  have positive := List.length_pos_iff.mpr nonempty
  rw [editorChars, if_pos inside, Digits.plain]
  by_cases small : d.point ≤ 0
  · rw [if_pos small, if_neg (by omega), if_neg (by omega)]
    rfl
  · by_cases short : d.point < d.digits.length
    · rw [if_neg small, if_pos short, if_neg (by omega), if_pos (by omega)]
    · have zeros : d.point.toNat - d.digits.length = (d.point - d.digits.length).toNat := by omega
      rw [if_neg small, if_neg short, if_neg Bool.false_ne_true, List.append_nil,
        if_pos (by omega), zeros]

theorem scientific_eq_editorChars (outside : ¬ (-6 < d.point ∧ d.point ≤ 21)) :
    d.scientific true = editorChars d := by
  have sign : (if d.point - 1 < 0 then ['-'] else if true then ['+'] else []) =
      [if d.point - 1 < 0 then '-' else '+'] := by
    split <;> rfl
  rw [editorChars, if_neg outside, Digits.scientific, sign]
  obtain ⟨c, rest, digits⟩ := List.exists_cons_of_ne_nil nonempty
  rw [digits]
  cases rest with
  | nil => rfl
  | cons next more =>
      have several : ¬ ((c :: next :: more).length : Int) = 1 := by
        simp only [List.length_cons]
        omega
      rw [if_neg several]
      simp [natChars]

end Notation

/-- A number is written as the block editor writes it. -/
theorem number_eq_editorText (v : Binary64) :
    number v = editorText (Magnitude.shortest .away) v := by
  cases v with
  | nan => rfl
  | infinite negative => rfl
  | finite negative x =>
      rw [number, editorText]
      split
      · rfl
      · rename_i other
        have nonzero : x.isZero = false := Bool.eq_false_iff.mpr other
        have nonempty := (isShortest_shortest nonzero .away).nonempty
        rw [magnitudeChars]
        split
        · rename_i plain
          rw [plain_eq_editorChars nonempty ((isPlainMagnitude_iff nonzero).mp plain)]
        · rename_i scientific
          rw [scientific_eq_editorChars nonempty
            fun inside => scientific ((isPlainMagnitude_iff nonzero).mpr inside)]

/-! ## Reading the text -/

/-- The parts of a text that stands for digits. It has the digits and perhaps more zeros around
its point, and the power of ten makes up for where the point stands. -/
structure TextParts (d : Digits) (text whole fraction tail : List Char) (power : Int)
    (zeros : Nat) : Prop where
  chars : text = whole ++ (fractionChars fraction ++ tail)
  wholeAll : ∀ c ∈ whole, c.isDigit
  nonempty : whole ≠ []
  fractionAll : ∀ c ∈ fraction, c.isDigit
  ends : PowerTail tail power
  value : digitsValue (whole ++ fraction) = digitsValue d.digits * 10 ^ zeros
  placed : power - fraction.length + zeros = d.point - d.digits.length

theorem fractionChars_of_ne_nil {fraction : List Char} (nonempty : fraction ≠ []) :
    fractionChars fraction = '.' :: fraction := by
  cases fraction with
  | nil => exact absurd rfl nonempty
  | cons c rest => rfl

section Parts

variable {d : Digits} (nonempty : d.digits ≠ []) (all : ∀ c ∈ d.digits, c.isDigit)

include nonempty all

/-- Digits and zeros behind them. -/
theorem textParts_padded (full : d.digits.length ≤ d.point) :
    TextParts d (d.digits ++ List.replicate (d.point - d.digits.length).toNat '0')
      (d.digits ++ List.replicate (d.point - d.digits.length).toNat '0') [] [] 0
      (d.point - d.digits.length).toNat where
  chars := (List.append_nil _).symm
  wholeAll := Json.AllDigits.append all (Json.isDigit_zeros _)
  nonempty := List.append_ne_nil_of_left_ne_nil nonempty _
  fractionAll := nofun
  ends := .none
  value := by rw [List.append_nil, digitsValue_append_zeros]
  placed := by
    rw [List.length_nil]
    omega

/-- Digits on both sides of the point. -/
theorem textParts_around (large : 0 < d.point) (short : d.point < d.digits.length) :
    TextParts d (d.digits.take d.point.toNat ++ '.' :: d.digits.drop d.point.toNat)
      (d.digits.take d.point.toNat) (d.digits.drop d.point.toNat) [] 0 0 where
  chars := by
    have some_digit : d.digits.drop d.point.toNat ≠ [] := by
      rw [ne_eq, List.drop_eq_nil_iff]
      omega
    rw [fractionChars_of_ne_nil some_digit, List.append_nil]
  wholeAll c held := all c (List.mem_of_mem_take held)
  nonempty := by
    rw [ne_eq, List.take_eq_nil_iff, not_or]
    exact ⟨by omega, nonempty⟩
  fractionAll c held := all c (List.mem_of_mem_drop held)
  ends := .none
  value := by rw [List.take_append_drop, Nat.pow_zero, Nat.mul_one]
  placed := by
    rw [List.length_drop]
    omega

/-- A zero before the point, and zeros and the digits behind it. -/
theorem textParts_small (small : d.point ≤ 0) :
    TextParts d ('0' :: '.' :: (List.replicate (-d.point).toNat '0' ++ d.digits))
      ['0'] (List.replicate (-d.point).toNat '0' ++ d.digits) [] 0 0 where
  chars := by
    rw [fractionChars_of_ne_nil (List.append_ne_nil_of_right_ne_nil _ nonempty), List.append_nil]
    rfl
  wholeAll := Json.isDigit_zeros 1
  nonempty := List.cons_ne_nil _ _
  fractionAll := Json.AllDigits.append (Json.isDigit_zeros _) all
  ends := .none
  value := by
    rw [← List.append_assoc, show ['0'] ++ List.replicate (-d.point).toNat '0' =
      List.replicate ((-d.point).toNat + 1) '0' from rfl, Json.digitsValue_zeros_append,
      Nat.pow_zero, Nat.mul_one]
  placed := by
    rw [List.length_append, List.length_replicate]
    omega

/-- One digit before the point, the others behind it, and a power of ten. -/
theorem textParts_power :
    TextParts d (d.digits.take 1 ++ (fractionChars (d.digits.drop 1) ++ 'e' ::
        (if d.point - 1 < 0 then '-' else '+') :: natChars (d.point - 1).natAbs))
      (d.digits.take 1) (d.digits.drop 1)
      ('e' :: (if d.point - 1 < 0 then '-' else '+') :: natChars (d.point - 1).natAbs)
      (d.point - 1) 0 where
  chars := rfl
  wholeAll c held := all c (List.mem_of_mem_take held)
  nonempty := by
    rw [ne_eq, List.take_eq_nil_iff, not_or]
    exact ⟨Nat.one_ne_zero, nonempty⟩
  fractionAll c held := all c (List.mem_of_mem_drop held)
  ends := by
    apply PowerTail.power
    by_cases down : d.point - 1 < 0
    · have power : -((d.point - 1).natAbs : Int) = d.point - 1 := by omega
      have signed := signedDigits?_sign true (d.point - 1).natAbs
      rw [if_pos down]
      rwa [if_pos rfl, if_pos rfl, power] at signed
    · have power : ((d.point - 1).natAbs : Int) = d.point - 1 := by omega
      have signed := signedDigits?_sign false (d.point - 1).natAbs
      rw [if_neg down]
      rwa [if_neg Bool.false_ne_true, if_neg Bool.false_ne_true, power] at signed
  value := by rw [List.take_append_drop, Nat.pow_zero, Nat.mul_one]
  placed := by
    have positive := List.length_pos_iff.mpr nonempty
    rw [List.length_drop]
    omega

/-- The text of the block editor is put together from parts in each of its notations. -/
theorem exists_textParts :
    ∃ whole fraction tail power zeros,
      TextParts d (editorChars d) whole fraction tail power zeros := by
  rw [editorChars]
  by_cases inside : -6 < d.point ∧ d.point ≤ 21
  · rw [if_pos inside]
    by_cases full : (d.digits.length : Int) ≤ d.point
    · rw [if_pos full]
      exact ⟨_, _, _, _, _, textParts_padded nonempty all full⟩
    rw [if_neg full]
    by_cases large : 0 < d.point
    · rw [if_pos large]
      exact ⟨_, _, _, _, _, textParts_around nonempty all large (Int.lt_of_not_ge full)⟩
    · rw [if_neg large]
      exact ⟨_, _, _, _, _, textParts_small nonempty all (Int.not_lt.mp large)⟩
  · rw [if_neg inside]
    have parts := textParts_power nonempty all
    by_cases single : (d.digits.length : Int) = 1
    · have one : d.digits.length ≤ 1 := by omega
      rw [List.drop_eq_nil_of_le one, List.take_of_length_le one] at parts
      rw [if_pos single]
      exact ⟨_, _, _, _, _, parts⟩
    · have more : d.digits.drop 1 ≠ [] := by
        have positive := List.length_pos_iff.mpr nonempty
        rw [ne_eq, List.drop_eq_nil_iff]
        omega
      have text := fractionChars_of_ne_nil more
      rw [if_neg single]
      refine ⟨_, _, _, _, _, { parts with chars := ?_ }⟩
      rw [text]
      rfl

end Parts

theorem head?_of_textParts {d : Digits} {text whole fraction tail : List Char} {power : Int}
    {zeros : Nat} (parts : TextParts d text whole fraction tail power zeros) :
    text.head?.any Char.isDigit := by
  obtain ⟨c, rest, rfl⟩ := List.exists_cons_of_ne_nil parts.nonempty
  rw [parts.chars]
  exact parts.wholeAll c List.mem_cons_self

/-- The text of a magnitude is read as it, behind any sign. -/
theorem ofText?_editorChars {x : Magnitude} (nonzero : x.isZero = false) (tie : Tie)
    (negative : Bool) :
    Binary64.ofText? (String.ofList (signChars negative ++ editorChars (x.shortest tie))) =
      some (.finite negative x) := by
  have short := isShortest_shortest nonzero tie
  obtain ⟨whole, fraction, tail, power, zeros, parts⟩ :=
    exists_textParts short.nonempty short.digits
  rw [Binary64.ofText?_signChars (head?_of_textParts parts), parts.chars,
    Binary64.ofUnsigned?_parts parts.wholeAll parts.nonempty parts.fractionAll parts.ends,
    parts.value, ofDecimal?_shortest x parts.placed]
  rfl

/-- A double without the sign that a zero may have. -/
def withoutZeroSign : Binary64 → Binary64
  | .finite negative x => .finite (negative && !x.isZero) x
  | v => v

/-- A finite double is read from its text, but for the sign of a zero. -/
theorem ofText?_number {v : Binary64} (finite : v.isFinite) :
    Binary64.ofText? (String.ofList (number v)) = some (withoutZeroSign v) := by
  cases v with
  | nan => cases finite
  | infinite negative => cases finite
  | finite negative x =>
      rw [number_eq_editorText, editorText, withoutZeroSign]
      by_cases isZero : x.isZero
      · rw [if_pos isZero, isZero, eq_zero_of_isZero isZero, Bool.not_true, Bool.and_false]
        rfl
      · rw [if_neg isZero, Bool.eq_false_iff.mpr isZero, Bool.not_false, Bool.and_true]
        exact ofText?_editorChars (Bool.eq_false_iff.mpr isZero) .away negative

/-- A double is written as the block editor writes it, from the fewest digits that are read as its
magnitude and the nearest ones of these; and what is written for a finite one is read as this double
again, but for the sign of a zero. -/
theorem number_spelled_exactly (v : Binary64) :
    number v = editorText (Magnitude.shortest .away) v ∧
      (∀ negative x, v = .finite negative x → x.isZero = false → x.IsShortest (x.shortest .away)) ∧
      (v.isFinite → Binary64.ofText? (String.ofList (number v)) = some (withoutZeroSign v)) :=
  ⟨number_eq_editorText v, fun _ _ _ nonzero => isShortest_shortest nonzero .away, ofText?_number⟩

/-- At a sextillion the text gets its power of ten. -/
theorem number_spelled_exactly_sextillion :
    number (.finite true sextillion) = "-1e+21".toList ∧
      sextillion.IsShortest (sextillion.shortest .away) ∧
      Binary64.ofText? (String.ofList (number (.finite true sextillion))) =
        some (.finite true sextillion) := by
  obtain ⟨spelled, shortest, read⟩ := number_spelled_exactly (.finite true sextillion)
  refine ⟨?_, shortest true sextillion rfl (by decide), read rfl⟩
  rw [spelled]
  decide +kernel

end BlockForge.Code
