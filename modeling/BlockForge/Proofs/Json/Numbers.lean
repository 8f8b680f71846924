/-
# The numbers of a text

Whatever is read from a text, its whole numbers are of 64 bits and its doubles are finite: a whole
number that is too long becomes a double, and a double past the largest one is a fault. Nothing is
said about texts that are read to their end only, so a tree that breaks off has such numbers too.
-/

import BlockForge.Json.Node
import BlockForge.Proofs.Json.Giving

namespace BlockForge.Json

/-! ## Numbers -/

theorem takeDigits_le {limit : Nat} (digits : List Char) {n : Nat} (fits : n ≤ limit) :
    (takeDigits limit n digits).1 ≤ limit := by
  induction digits generalizing n with
  | nil => exact fits
  | cons c rest ih =>
      rw [takeDigits]
      split
      · exact fits
      · exact ih (Nat.le_of_not_lt ‹_›)

theorem isJson_wholeNumber (negative : Bool) {n : Nat} (fits : n ≤ greatestUnsigned64) :
    (wholeNumber negative n).IsJson := by
  cases negative with
  | false => exact fits
  | true =>
      rw [wholeNumber]
      split
      · contradiction
      · split
        · rename_i small
          exact ⟨by omega, small.2⟩
        · obtain ⟨x, rounded⟩ := Magnitude.exists_ofNat?_of_fits fits
          rw [rounded]
          rfl

theorem scaledNumber_gives (negative : Bool) (significand : Nat) (power : Int) (after : Cursor) :
    Gives (fun read => read.1.IsJson) (scaledNumber negative significand power after) := by
  rw [scaledNumber]
  cases Magnitude.ofScaled? significand power with
  | none => exact Gives.error _
  | some x => exact Gives.ok rfl

theorem readPower_gives (negative : Bool) (significand : Nat) (shift : Int) (c : Cursor) :
    Gives (fun read => read.1.IsJson) (readPower negative significand shift c) := by
  rw [readPower.eq_def]
  split
  split
  · exact Gives.error _
  · split
    · exact Gives.error _
    · dsimp only
      split
      · exact scaledNumber_gives _ _ _ _
      · split
        · exact Gives.ok rfl
        · exact Gives.error _

theorem readAfterDigits_gives (negative : Bool) (significand : Nat) (shift : Int) (c : Cursor) :
    Gives (fun read => read.1.IsJson) (readAfterDigits negative significand shift c) := by
  rw [readAfterDigits.eq_def]
  split
  · exact readPower_gives _ _ _ _
  · exact readPower_gives _ _ _ _
  · exact scaledNumber_gives _ _ _ _

theorem readFraction_gives (negative : Bool) (significand : Nat) (shift : Int) (c : Cursor) :
    Gives (fun read => read.1.IsJson) (readFraction negative significand shift c) := by
  rw [readFraction]
  dsimp only
  split
  · exact Gives.error _
  · exact readAfterDigits_gives _ _ _ _

theorem readUnsigned_gives (negative : Bool) (c : Cursor) :
    Gives (fun read => read.1.IsJson) (readUnsigned negative c) := by
  rw [readUnsigned.eq_def]
  split
  · exact Gives.error _
  · split
    · exact Gives.error _
    · split
      · exact Gives.error _
      · dsimp only
        split
        · exact readFraction_gives _ _ _ _
        · exact readAfterDigits_gives _ _ _ _
        · exact readAfterDigits_gives _ _ _ _
        · split
          · exact Gives.ok (isJson_wholeNumber negative (takeDigits_le _ (Nat.zero_le _)))
          · exact scaledNumber_gives _ _ _ _

/-- A number of a text is a whole number of 64 bits or a finite double. -/
theorem readNumber_gives (c : Cursor) : Gives (fun read => read.1.IsJson) (readNumber c) := by
  rw [readNumber.eq_def]
  split
  · exact readUnsigned_gives _ _
  · exact readUnsigned_gives _ _

/-! ## Trees -/

theorem isJson_scalarNode {read : Except Fault (Scalar × Cursor)} (skip : Except Fault Cursor)
    (json : Gives (fun scalar => scalar.1.value.IsJson) read) : (scalarNode read skip).1.IsJson := by
  rw [scalarNode.eq_def]
  split
  · cases read with
    | error fault => trivial
    | ok scalar => exact json scalar rfl
  · split <;> trivial

theorem isJson_wordNode (letters : List Char) {s : Scalar} (json : s.value.IsJson) (c : Cursor) :
    (wordNode letters s c).1.IsJson :=
  isJson_scalarNode _ (Gives.map ((Gives.anything _).mono fun _ _ => json))

mutual

/-- The tree of a text has only numbers that JSON has. -/
theorem isJson_nodeAt : (fuel : Nat) → (c : Cursor) → (nodeAt fuel c).1.IsJson
  | 0, _ => trivial
  | fuel + 1, c => by
    rw [nodeAt]
    dsimp only
    split
    · trivial
    · split
      · exact isJson_wordNode _ (by trivial) _
      · exact isJson_wordNode _ (by trivial) _
      · exact isJson_wordNode _ (by trivial) _
      · exact isJson_scalarNode _ (Gives.map ((Gives.anything _).mono fun _ _ => trivial))
      · exact areJson_itemsAt fuel true _
      · exact areJson_membersAt fuel true _
      · split
        · exact isJson_scalarNode _ (Gives.map (readNumber_gives _))
        · trivial

theorem areJson_itemsAt : (fuel : Nat) → (isFirst : Bool) → (c : Cursor) →
    (itemsAt fuel isFirst c).1.AreJson
  | 0, _, _ => trivial
  | fuel + 1, isFirst, c => by
    rw [itemsAt]
    dsimp only
    split
    · trivial
    · trivial
    · split
      · exact areJson_itemAt fuel _
      · split
        · split
          · trivial
          · trivial
          · exact areJson_itemAt fuel _
        · trivial

theorem areJson_itemAt : (fuel : Nat) → (c : Cursor) → (itemAt fuel c).1.AreJson
  | 0, _ => trivial
  | fuel + 1, c => by
    have first := isJson_nodeAt fuel c
    rw [itemAt]
    split
    · rename_i value after read
      rw [read] at first
      exact ⟨first, areJson_itemsAt fuel false after⟩
    · rename_i value read
      rw [read] at first
      exact ⟨first, trivial⟩

theorem areJson_membersAt : (fuel : Nat) → (isFirst : Bool) → (c : Cursor) →
    (membersAt fuel isFirst c).1.AreJson
  | 0, _, _ => trivial
  | fuel + 1, isFirst, c => by
    rw [membersAt]
    dsimp only
    split
    · trivial
    · trivial
    · split
      · split
        · exact areJson_memberAt fuel _
        · trivial
      · split
        · split
          · trivial
          · exact areJson_memberAt fuel _
          · trivial
          · trivial
        · trivial

theorem areJson_memberAt : (fuel : Nat) → (c : Cursor) → (memberAt fuel c).1.AreJson
  | 0, _ => trivial
  | fuel + 1, c => by
    rw [memberAt]
    dsimp only
    split
    · split <;> trivial
    · split
      · rename_i afterKey _ _ rest _
        have own := isJson_nodeAt fuel ⟨rest, afterKey.skipSpace.offset + 1⟩
        split
        · rename_i value after read
          rw [read] at own
          exact ⟨own, areJson_membersAt fuel false after⟩
        · rename_i value read
          rw [read] at own
          exact ⟨own, trivial⟩
      · exact ⟨trivial, trivial⟩
      · exact ⟨trivial, trivial⟩

end

theorem Document.isJson_root (text : List Char) : (Document.ofText text).root.IsJson := by
  have read := isJson_nodeAt (3 * text.length + 3) (.start text)
  rw [Document.ofText]
  split
  · rename_i root found
    rw [found] at read
    exact read
  · rename_i root after found
    rw [found] at read
    exact read

theorem readText_eq_ok {α : Type} {text : List Char} {read : Node → Except Fault α} {a : α} :
    readText text read = .ok a ↔
      read (Document.ofText text).root = .ok a ∧ (Document.ofText text).tail = none := by
  rw [readText]
  cases read (Document.ofText text).root with
  | error fault => simp [bind, Except.bind]
  | ok b => cases (Document.ofText text).tail <;> simp [bind, Except.bind, pure, Except.pure]

/-- A value that is read from a text has only numbers that JSON has. -/
theorem Value.ofText_gives (text : List Char) : Gives Value.IsJson (Value.ofText text) := by
  intro v read
  have root := (readText_eq_ok.mp read).1
  exact Node.value_gives .text _ (Document.isJson_root text) v root

end BlockForge.Json
