/-
# Strings read back

A string is written between quotes with every quote, backslash and control character in it
escaped. A reader that comes to the opening quote finds the string again, whatever characters it
holds, and comes to stand right behind the closing quote. Passing over the string ends at the
same place.

Each character is one piece of the text between the quotes, and the piece stands for that
character; the rest is an induction over the characters.
-/

import BlockForge.Json.Printer
import BlockForge.Json.Reading

namespace BlockForge.Json

/-- A piece that stands for one character, whatever comes after it. -/
def Piece.StandsFor (piece : Piece) (c : Char) : Prop :=
  ∀ final rest, joinPieces final (piece :: rest) =
    (joinPieces final rest).map fun (cs, after) => (c :: cs, after)

theorem Piece.standsFor_plain (c : Char) (stop : Nat) : (Piece.plain c stop).StandsFor c := by
  intro final rest
  rfl

theorem Piece.standsFor_escaped (c : Char) (stop : Nat) : (Piece.escaped c stop).StandsFor c := by
  intro final rest
  rfl

/-- A hexadecimal escape of a control character is no part of a surrogate pair. -/
theorem Piece.standsFor_unit {c : Char} (control : c.toNat < 0x20) (stop : Nat) :
    (Piece.unit c.toNat stop).StandsFor c := by
  intro final rest
  have notTrailing : isTrailing c.toNat = false := by
    simp only [isTrailing, Bool.and_eq_false_iff, decide_eq_false_iff_not]
    omega
  have notLeading : isLeading c.toNat = false := by
    simp only [isLeading, Bool.and_eq_false_iff, decide_eq_false_iff_not]
    omega
  rw [joinPieces.eq_def]
  simp only [notTrailing, notLeading, Bool.false_eq_true, if_false, Char.ofNat_toNat]

/-- The two hexadecimal digits of a control character are read back. -/
theorem hexUnit?_control : ∀ code < 0x20,
    hexUnit? '0' '0' (Nat.digitChar (code / 16)) (Nat.digitChar (code % 16)) = some code := by
  decide

/-- A character that is written without an escape is a piece of its own. -/
theorem pieces_cons_plain {c : Char} (noQuote : c ≠ '"') (noBackslash : c ≠ '\\')
    (printable : ¬ c.toNat < 0x20) (text : List Char) (offset : Nat) :
    pieces (c :: text) offset =
      (.plain c (offset + c.utf8Size) :: (pieces text (offset + c.utf8Size)).1,
        (pieces text (offset + c.utf8Size)).2) := by
  rw [pieces, if_neg printable]
  all_goals simp [noQuote, noBackslash]

/-- What a character is written as is one piece, which stands for the character. -/
theorem pieces_escapeChar (c : Char) (text : List Char) (offset : Nat) :
    ∃ piece stop, piece.StandsFor c ∧
      pieces (escapeChar c ++ text) offset = (piece :: (pieces text stop).1, (pieces text stop).2) := by
  unfold escapeChar
  split
  case h_8 noQuote noBackslash _ _ _ _ _ =>
    split
    · rename_i control
      refine ⟨.unit c.toNat (offset + 6), offset + 6, Piece.standsFor_unit control _, ?_⟩
      simp only [List.cons_append, List.nil_append, pieces, hexUnit?_control _ control]
    · rename_i printable
      exact ⟨_, _, Piece.standsFor_plain c _, pieces_cons_plain noQuote noBackslash printable _ _⟩
  all_goals exact ⟨_, _, Piece.standsFor_escaped _ (offset + 2), rfl⟩

/-- The pieces of a written text stand for its characters and end at the closing quote. -/
theorem pieces_escaped (cs rest : List Char) (offset : Nat) :
    ∃ parts stop, pieces (cs.flatMap escapeChar ++ '"' :: rest) offset =
        (parts, .closed ⟨rest, stop⟩) ∧
      joinPieces (.closed ⟨rest, stop⟩) parts = .ok (cs, ⟨rest, stop⟩) := by
  induction cs generalizing offset with
  | nil => exact ⟨[], offset + 1, rfl, rfl⟩
  | cons c cs ih =>
      rw [List.flatMap_cons, List.append_assoc]
      obtain ⟨piece, next, stands, cut⟩ :=
        pieces_escapeChar c (cs.flatMap escapeChar ++ '"' :: rest) offset
      obtain ⟨parts, stop, others, joined⟩ := ih next
      refine ⟨piece :: parts, stop, ?_, ?_⟩
      · rw [cut, others]
      · rw [stands, joined]
        rfl

/-- A string is read back from what it is written as, and passing over it ends at the same
place. -/
theorem readString_escaped (s : String) (rest : List Char) (offset : Nat) :
    ∃ stop, readString ⟨s.toList.flatMap escapeChar ++ '"' :: rest, offset⟩ =
        .ok (s, ⟨rest, stop⟩) ∧
      skipString ⟨s.toList.flatMap escapeChar ++ '"' :: rest, offset⟩ = .ok ⟨rest, stop⟩ := by
  obtain ⟨parts, stop, cut, joined⟩ := pieces_escaped s.toList rest offset
  refine ⟨stop, ?_, ?_⟩
  · simp only [readString, cut, joined, Except.map, String.ofList_toList]
  · simp only [skipString, cut]
    rfl

end BlockForge.Json
