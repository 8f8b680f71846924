/-
# Pretty texts read back

A value that is written with one item or member a line is read back as a tree that holds the
value, with every finite double as what its digits are taken for and null for the others. Nothing
is asked of strings and keys. Whole numbers have to be of 64 bits, which those of every value that
was read or made by this library are.

The reader is followed through the text with an arbitrary rest after it. The induction is on the
value; the loop over the pieces between two brackets is an induction of its own, which knows of a
piece no more than that its value is read from it.
-/

import BlockForge.Proofs.Json.Holding
import BlockForge.Proofs.Json.Numeral
import BlockForge.Proofs.Json.Quoted

namespace BlockForge.Json

/-! ## What is read from a text -/

/-- A text from which a tree is read that holds a value, whatever follows the text, and with
enough fuel for the text. -/
def Comes (text : List Char) (v : Value) : Prop :=
  ∀ fuel rest offset, 3 * text.length ≤ fuel → Stops rest →
    ∃ node stop, nodeAt fuel ⟨text ++ rest, offset⟩ = (node, some ⟨rest, stop⟩) ∧
      node.Holds v

/-- A text that starts with something else than a blank or the end of an array. -/
def Starts (text : List Char) : Prop :=
  ∃ c rest, text = c :: rest ∧ Cursor.isSpace c = false ∧ c ≠ ']'

theorem skipSpace_append {blanks rest : List Char} (all : ∀ c ∈ blanks, Cursor.isSpace c)
    (starts : ∀ c ∈ rest.head?, Cursor.isSpace c = false) (offset : Nat) :
    Cursor.skipSpace ⟨blanks ++ rest, offset⟩ = ⟨rest, offset + blanks.length⟩ := by
  obtain ⟨taken, left⟩ := Text.takeWhile_append_head all starts
  simp only [Cursor.skipSpace, taken, left]

theorem not_space_cons {c : Char} (other : Cursor.isSpace c = false) (rest : List Char) :
    ∀ d ∈ (c :: rest).head?, Cursor.isSpace d = false := by
  intro d head
  obtain rfl : c = d := Option.some.inj head
  exact other

theorem skipSpace_start {text : List Char} (starts : ∀ c ∈ text.head?, Cursor.isSpace c = false)
    (offset : Nat) : Cursor.skipSpace ⟨text, offset⟩ = ⟨text, offset⟩ :=
  @skipSpace_append [] text (by simp) starts offset

theorem isSpace_breakLine (level : Nat) : ∀ c ∈ breakLine level, Cursor.isSpace c := by
  intro c held
  rcases List.mem_cons.mp held with rfl | blank
  · rfl
  · rw [List.eq_of_mem_replicate blank]
    rfl

/-- Blanks before a value are passed over. -/
theorem nodeAt_blanks {blanks rest : List Char} (all : ∀ c ∈ blanks, Cursor.isSpace c)
    (starts : ∀ c ∈ rest.head?, Cursor.isSpace c = false) (fuel offset : Nat) :
    nodeAt (fuel + 1) ⟨blanks ++ rest, offset⟩ =
      nodeAt (fuel + 1) ⟨rest, offset + blanks.length⟩ := by
  rw [nodeAt, nodeAt, skipSpace_append all starts, skipSpace_start starts]

/-! ## The pieces between two brackets -/

theorem Starts.not_space {text : List Char} (starts : Starts text) (rest : List Char) :
    ∀ c ∈ (text ++ rest).head?, Cursor.isSpace c = false := by
  obtain ⟨first, more, rfl, other, -⟩ := starts
  intro c head
  obtain rfl : first = c := Option.some.inj head
  exact other

theorem stops_breakLine (level : Nat) (rest : List Char) : Stops (breakLine level ++ rest) := by
  intro c head
  obtain rfl : '\n' = c := Option.some.inj head
  decide

/-- Pieces after the first one, each after a comma and a line break. -/
def furtherPieces (level : Nat) (pieces : List (List Char)) : List Char :=
  pieces.flatMap fun piece => ',' :: (breakLine level ++ piece)

theorem stops_furtherPieces (inner outer : Nat) (pieces : List (List Char)) (rest : List Char) :
    Stops (furtherPieces inner pieces ++ (breakLine outer ++ rest)) := by
  cases pieces with
  | nil => exact stops_breakLine outer rest
  | cons piece pieces =>
      intro c head
      obtain rfl : ',' = c := Option.some.inj head
      decide

theorem bracketed_nil (opening closing : Char) (level : Nat) :
    bracketed opening closing level [] = [opening, closing] := rfl

/-- Pieces between brackets are a first one and further ones. -/
theorem bracketed_cons (opening closing : Char) (level : Nat) (piece : List Char)
    (pieces : List (List Char)) :
    bracketed opening closing level (piece :: pieces) =
      opening :: (breakLine (level + 1) ++ piece ++ furtherPieces (level + 1) pieces ++
        breakLine level ++ [closing]) := by
  have joined (first : List Char) : commaJoined ((first :: pieces).map (breakLine (level + 1) ++ ·)) =
      breakLine (level + 1) ++ first ++ furtherPieces (level + 1) pieces := by
    induction pieces generalizing first with
    | nil => simp [commaJoined, furtherPieces, List.intercalate]
    | cons next more ih =>
        have split : commaJoined ((first :: next :: more).map (breakLine (level + 1) ++ ·)) =
            breakLine (level + 1) ++ first ++
              ',' :: commaJoined ((next :: more).map (breakLine (level + 1) ++ ·)) := by
          simp [commaJoined, List.intercalate]
        rw [split, ih next, furtherPieces, furtherPieces, List.flatMap_cons]
        simp
  rw [bracketed, if_neg (by simp), joined]
  simp

theorem itemAt_comes {piece : List Char} {v : Value} (comes : Comes piece v) (fuel : Nat)
    (enough : 3 * piece.length ≤ fuel) {tail : List Char} (stops : Stops tail) (offset : Nat) :
    ∃ seen node stop, node.Holds v ∧
      itemAt (fuel + 1) ⟨piece ++ tail, offset⟩ =
        (.item seen node (itemsAt fuel false ⟨tail, stop⟩).1, (itemsAt fuel false ⟨tail, stop⟩).2) := by
  obtain ⟨node, stop, read, holds⟩ := comes fuel tail offset enough stops
  refine ⟨Cursor.seen ⟨piece ++ tail, offset⟩, node, stop, holds, ?_⟩
  rw [itemAt, read]

section Steps

variable {c : Cursor} {first : Char} {rest : List Char}

theorem itemsAt_end (ends : c.skipSpace.rest = ']' :: rest) (fuel : Nat) (isFirst : Bool) :
    itemsAt (fuel + 1) isFirst c =
      (.closed (c.skipSpace.offset + 1), some ⟨rest, c.skipSpace.offset + 1⟩) := by
  rw [itemsAt]
  simp only [ends]

theorem itemsAt_first (starts : c.skipSpace.rest = first :: rest) (noEnd : first ≠ ']')
    (fuel : Nat) : itemsAt (fuel + 1) true c = itemAt fuel c.skipSpace := by
  rw [itemsAt]
  split
  · rename_i empty
    rw [starts] at empty
    cases empty
  · rename_i ends
    rw [starts] at ends
    exact absurd (List.cons.inj ends).1 noEnd
  · rfl

theorem itemsAt_next {second : Char} {more : List Char} (comma : c.skipSpace.rest = ',' :: rest)
    (starts : (Cursor.skipSpace ⟨rest, c.skipSpace.offset + 1⟩).rest = second :: more)
    (noEnd : second ≠ ']') (fuel : Nat) :
    itemsAt (fuel + 1) false c = itemAt fuel (Cursor.skipSpace ⟨rest, c.skipSpace.offset + 1⟩) := by
  rw [itemsAt]
  split
  · rename_i empty
    rw [comma] at empty
    cases empty
  · rename_i ends
    rw [comma] at ends
    exact absurd (List.cons.inj ends).1 (by decide)
  · rename_i next
    rw [comma] at next
    obtain ⟨rfl, rfl⟩ := List.cons.inj next
    rw [if_neg Bool.false_ne_true, if_pos rfl]
    dsimp only
    split
    · rename_i empty
      rw [starts] at empty
      cases empty
    · rename_i ends
      rw [starts] at ends
      exact absurd (List.cons.inj ends).1 noEnd
    · rfl

end Steps

theorem itemsAt_close (level : Nat) (rest : List Char) (fuel offset : Nat) (isFirst : Bool) :
    ∃ stop, itemsAt (fuel + 1) isFirst ⟨breakLine level ++ ']' :: rest, offset⟩ =
      (.closed stop, some ⟨rest, stop⟩) := by
  have skipped := skipSpace_append (isSpace_breakLine level)
    (not_space_cons (c := ']') rfl rest) offset
  exact ⟨_, itemsAt_end (congrArg Cursor.rest skipped) fuel isFirst⟩

theorem itemsAt_empty (rest : List Char) (fuel offset : Nat) (isFirst : Bool) :
    itemsAt (fuel + 1) isFirst ⟨']' :: rest, offset⟩ =
      (.closed (offset + 1), some ⟨rest, offset + 1⟩) := by
  have skipped := skipSpace_start (not_space_cons (c := ']') rfl rest) offset
  rw [itemsAt_end (congrArg Cursor.rest skipped), skipped]

section Item

variable {piece : List Char} (starts : Starts piece) (level : Nat) (tail : List Char)
  (fuel offset : Nat)

include starts

theorem itemsAt_opening :
    ∃ place, itemsAt (fuel + 1) true ⟨breakLine level ++ (piece ++ tail), offset⟩ =
      itemAt fuel ⟨piece ++ tail, place⟩ := by
  have skipped := skipSpace_append (isSpace_breakLine level) (starts.not_space tail) offset
  obtain ⟨c, more, rfl, -, noEnd⟩ := starts
  refine ⟨offset + (breakLine level).length, ?_⟩
  rw [itemsAt_first (congrArg Cursor.rest skipped) noEnd, skipped]

theorem itemsAt_comma :
    ∃ place, itemsAt (fuel + 1) false ⟨',' :: (breakLine level ++ (piece ++ tail)), offset⟩ =
      itemAt fuel ⟨piece ++ tail, place⟩ := by
  have comma := skipSpace_start
    (not_space_cons (c := ',') rfl (breakLine level ++ (piece ++ tail))) offset
  have skipped := skipSpace_append (isSpace_breakLine level) (starts.not_space tail) (offset + 1)
  obtain ⟨c, more, rfl, -, noEnd⟩ := starts
  refine ⟨offset + 1 + (breakLine level).length, ?_⟩
  have next := itemsAt_next (congrArg Cursor.rest comma)
    (by rw [comma]; exact congrArg Cursor.rest skipped) noEnd fuel
  rw [comma, skipped] at next
  exact next

end Item

theorem length_furtherPieces (level : Nat) (piece : List Char) (pieces : List (List Char)) :
    (furtherPieces level (piece :: pieces)).length =
      1 + (breakLine level).length + piece.length + (furtherPieces level pieces).length := by
  simp only [furtherPieces, List.flatMap_cons, List.length_append, List.length_cons]
  omega

theorem furtherPieces_cons_append (level : Nat) (piece : List Char) (pieces : List (List Char))
    (tail : List Char) :
    furtherPieces level (piece :: pieces) ++ tail =
      ',' :: (breakLine level ++ (piece ++ (furtherPieces level pieces ++ tail))) := by
  simp [furtherPieces]

theorem itemsAt_furtherPieces {pieces : List (List Char)} {values : List Value}
    (comes : List.Forall₂ Comes pieces values) (starts : ∀ piece ∈ pieces, Starts piece)
    (inner outer : Nat) (rest : List Char) (fuel offset : Nat)
    (enough : 3 * (furtherPieces inner pieces).length < fuel) :
    ∃ items stop, itemsAt fuel false
        ⟨furtherPieces inner pieces ++ (breakLine outer ++ ']' :: rest), offset⟩ =
          (items, some ⟨rest, stop⟩) ∧
      items.Hold values := by
  induction comes generalizing fuel offset with
  | nil =>
      obtain ⟨fuel, rfl⟩ : ∃ less, fuel = less + 1 := ⟨fuel - 1, by omega⟩
      obtain ⟨stop, closed⟩ := itemsAt_close outer rest fuel offset false
      exact ⟨_, stop, closed, rfl⟩
  | @cons piece v pieces values first others ih =>
      have length := length_furtherPieces inner piece pieces
      obtain ⟨fuel, rfl⟩ : ∃ less, fuel = less + 2 := ⟨fuel - 2, by omega⟩
      rw [furtherPieces_cons_append]
      obtain ⟨place, comma⟩ := itemsAt_comma (starts piece List.mem_cons_self) inner
        (furtherPieces inner pieces ++ (breakLine outer ++ ']' :: rest)) (fuel + 1) offset
      obtain ⟨seen, node, stop, holds, item⟩ := itemAt_comes first fuel (by omega)
        (stops_furtherPieces inner outer pieces (']' :: rest)) place
      obtain ⟨items, final, read, values⟩ := ih
        (fun piece held => starts piece (List.mem_cons_of_mem _ held)) fuel stop (by omega)
      refine ⟨.item seen node items, final, ?_, ?_⟩
      · rw [comma, item, read]
      · exact Items.hold_item holds values seen

/-- An array is read from its items between brackets. -/
theorem comes_array {pieces : List (List Char)} {values : List Value}
    (comes : List.Forall₂ Comes pieces values) (starts : ∀ piece ∈ pieces, Starts piece)
    (level : Nat) : Comes (bracketed '[' ']' level pieces) (.array values) := by
  intro fuel rest offset enough stops
  have opened (text : List Char) (fuel : Nat) :
      nodeAt (fuel + 1) ⟨'[' :: text, offset⟩ =
        (.array offset (itemsAt fuel true ⟨text, offset + 1⟩).1,
          (itemsAt fuel true ⟨text, offset + 1⟩).2) := by
    rw [nodeAt, skipSpace_start (not_space_cons rfl _)]
    rfl
  cases comes with
  | nil =>
      rw [bracketed_nil] at enough ⊢
      obtain ⟨fuel, rfl⟩ : ∃ less, fuel = less + 2 :=
        ⟨fuel - 2, by simp only [List.length_cons, List.length_nil] at enough; omega⟩
      refine ⟨.array offset (.closed (offset + 2)), offset + 2, ?_, rfl⟩
      show nodeAt (fuel + 2) ⟨'[' :: ']' :: rest, offset⟩ = _
      rw [opened, itemsAt_empty]
  | @cons piece v pieces values first others =>
      rw [bracketed_cons] at enough ⊢
      simp only [List.length_cons, List.length_append, List.length_nil] at enough
      obtain ⟨fuel, rfl⟩ : ∃ less, fuel = less + 3 := ⟨fuel - 3, by omega⟩
      have text : '[' :: (breakLine (level + 1) ++ piece ++ furtherPieces (level + 1) pieces ++
          breakLine level ++ [']']) ++ rest =
          '[' :: (breakLine (level + 1) ++ (piece ++
            (furtherPieces (level + 1) pieces ++ (breakLine level ++ ']' :: rest)))) := by
        simp
      obtain ⟨place, opening⟩ := itemsAt_opening (starts piece List.mem_cons_self) (level + 1)
        (furtherPieces (level + 1) pieces ++ (breakLine level ++ ']' :: rest)) (fuel + 1)
        (offset + 1)
      obtain ⟨seen, node, stop, holds, item⟩ := itemAt_comes first fuel (by omega)
        (stops_furtherPieces (level + 1) level pieces (']' :: rest)) place
      obtain ⟨items, final, read, values⟩ := itemsAt_furtherPieces others
        (fun piece held => starts piece (List.mem_cons_of_mem _ held)) (level + 1) level rest fuel
        stop (by omega)
      refine ⟨.array offset (.item seen node items), final, ?_, ?_⟩
      · rw [text, opened, opening, item, read]
      · exact Node.holds_array (Items.hold_item holds values seen) offset

/-! ## Members between two brackets -/

/-- A text from which a key and then a value are read. -/
def MemberComes (piece : List Char) (member : String × Value) : Prop :=
  ∃ text, piece = stringChars member.1 ++ ':' :: ' ' :: text ∧ Starts text ∧ Comes text member.2

theorem MemberComes.starts {piece : List Char} {member : String × Value}
    (comes : MemberComes piece member) :
    ∃ rest, piece = '"' :: rest := by
  obtain ⟨text, rfl, -⟩ := comes
  exact ⟨_, rfl⟩

theorem memberAt_comes {piece : List Char} {member : String × Value}
    (comes : MemberComes piece member) (fuel : Nat) (enough : 3 * piece.length ≤ fuel)
    {tail : List Char} (stops : Stops tail) (offset : Nat) :
    ∃ standing node stop, node.Holds member.2 ∧
      memberAt (fuel + 1) ⟨piece.tail ++ tail, offset⟩ =
        (.member (.ok member.1) standing node (membersAt fuel false ⟨tail, stop⟩).1,
          (membersAt fuel false ⟨tail, stop⟩).2) := by
  obtain ⟨text, rfl, starts, comes⟩ := comes
  simp only [stringChars, List.length_cons, List.length_append] at enough
  obtain ⟨fuel, rfl⟩ : ∃ less, fuel = less + 1 := ⟨fuel - 1, by omega⟩
  have split : (stringChars member.1 ++ ':' :: ' ' :: text).tail ++ tail =
      member.1.toList.flatMap escapeChar ++ '"' :: (':' :: ([' '] ++ (text ++ tail))) := by
    simp [stringChars]
  obtain ⟨stop, read, skip⟩ :=
    readString_escaped member.1 (':' :: ([' '] ++ (text ++ tail))) offset
  have colon := skipSpace_start (not_space_cons (c := ':') rfl ([' '] ++ (text ++ tail))) stop
  have blank := @nodeAt_blanks [' '] _ (by simp [Cursor.isSpace]) (starts.not_space tail)
    fuel (stop + 1)
  obtain ⟨node, final, value, holds⟩ := comes (fuel + 1) tail (stop + 1 + 1) (by omega) stops
  refine ⟨standingAt ⟨':' :: ([' '] ++ (text ++ tail)), stop⟩, node, final, holds, ?_⟩
  rw [split, memberAt, read, skip]
  simp only [colon, blank, List.length_singleton, value]
  rfl

section Steps

variable {c : Cursor} {rest : List Char}

theorem membersAt_end (ends : c.skipSpace.rest = '\x7d' :: rest) (fuel : Nat) (isFirst : Bool) :
    membersAt (fuel + 1) isFirst c =
      (.closed (c.skipSpace.offset + 1), some ⟨rest, c.skipSpace.offset + 1⟩) := by
  rw [membersAt]
  simp only [ends]

theorem membersAt_first (starts : c.skipSpace.rest = '"' :: rest) (fuel : Nat) :
    membersAt (fuel + 1) true c = memberAt fuel ⟨rest, c.skipSpace.offset + 1⟩ := by
  rw [membersAt]
  split
  · rename_i empty
    rw [starts] at empty
    cases empty
  · rename_i ends
    rw [starts] at ends
    exact absurd (List.cons.inj ends).1 (by decide)
  · rename_i next
    rw [starts] at next
    obtain ⟨rfl, rfl⟩ := List.cons.inj next
    rw [if_pos rfl, if_pos rfl]

theorem membersAt_next {more : List Char} (comma : c.skipSpace.rest = ',' :: rest)
    (starts : (Cursor.skipSpace ⟨rest, c.skipSpace.offset + 1⟩).rest = '"' :: more) (fuel : Nat) :
    membersAt (fuel + 1) false c =
      memberAt fuel ⟨more, (Cursor.skipSpace ⟨rest, c.skipSpace.offset + 1⟩).offset + 1⟩ := by
  rw [membersAt]
  split
  · rename_i empty
    rw [comma] at empty
    cases empty
  · rename_i ends
    rw [comma] at ends
    exact absurd (List.cons.inj ends).1 (by decide)
  · rename_i next
    rw [comma] at next
    obtain ⟨rfl, rfl⟩ := List.cons.inj next
    rw [if_neg Bool.false_ne_true, if_pos rfl]
    simp only [starts]

end Steps

theorem membersAt_close (level : Nat) (rest : List Char) (fuel offset : Nat) (isFirst : Bool) :
    ∃ stop, membersAt (fuel + 1) isFirst ⟨breakLine level ++ '\x7d' :: rest, offset⟩ =
      (.closed stop, some ⟨rest, stop⟩) := by
  have skipped := skipSpace_append (isSpace_breakLine level)
    (not_space_cons (c := '\x7d') rfl rest) offset
  exact ⟨_, membersAt_end (congrArg Cursor.rest skipped) fuel isFirst⟩

theorem membersAt_empty (rest : List Char) (fuel offset : Nat) (isFirst : Bool) :
    membersAt (fuel + 1) isFirst ⟨'\x7d' :: rest, offset⟩ =
      (.closed (offset + 1), some ⟨rest, offset + 1⟩) := by
  have skipped := skipSpace_start (not_space_cons (c := '\x7d') rfl rest) offset
  rw [membersAt_end (congrArg Cursor.rest skipped), skipped]

section Member

variable {piece : List Char} {member : String × Value} (comes : MemberComes piece member)
  (level : Nat) (tail : List Char) (fuel offset : Nat)

include comes

theorem membersAt_opening :
    ∃ place, membersAt (fuel + 1) true ⟨breakLine level ++ (piece ++ tail), offset⟩ =
      memberAt fuel ⟨piece.tail ++ tail, place⟩ := by
  obtain ⟨more, rfl⟩ := comes.starts
  have skipped := skipSpace_append (isSpace_breakLine level)
    (not_space_cons (c := '"') rfl (more ++ tail)) offset
  exact ⟨_, membersAt_first (congrArg Cursor.rest skipped) fuel⟩

theorem membersAt_comma :
    ∃ place, membersAt (fuel + 1) false ⟨',' :: (breakLine level ++ (piece ++ tail)), offset⟩ =
      memberAt fuel ⟨piece.tail ++ tail, place⟩ := by
  obtain ⟨more, rfl⟩ := comes.starts
  have comma := skipSpace_start
    (not_space_cons (c := ',') rfl (breakLine level ++ ('"' :: more ++ tail))) offset
  have skipped := skipSpace_append (isSpace_breakLine level)
    (not_space_cons (c := '"') rfl (more ++ tail)) (offset + 1)
  exact ⟨_, membersAt_next (congrArg Cursor.rest comma)
    (by rw [comma]; exact congrArg Cursor.rest skipped) fuel⟩

end Member

theorem membersAt_furtherPieces {pieces : List (List Char)} {members : List (String × Value)}
    (comes : List.Forall₂ MemberComes pieces members) (inner outer : Nat) (rest : List Char)
    (fuel offset : Nat) (enough : 3 * (furtherPieces inner pieces).length < fuel) :
    ∃ tree stop, membersAt fuel false
        ⟨furtherPieces inner pieces ++ (breakLine outer ++ '\x7d' :: rest), offset⟩ =
          (tree, some ⟨rest, stop⟩) ∧
      tree.Hold members := by
  induction comes generalizing fuel offset with
  | nil =>
      obtain ⟨fuel, rfl⟩ : ∃ less, fuel = less + 1 := ⟨fuel - 1, by omega⟩
      obtain ⟨stop, closed⟩ := membersAt_close outer rest fuel offset false
      exact ⟨_, stop, closed, rfl⟩
  | @cons piece member pieces members first others ih =>
      have length := length_furtherPieces inner piece pieces
      obtain ⟨fuel, rfl⟩ : ∃ less, fuel = less + 2 := ⟨fuel - 2, by omega⟩
      rw [furtherPieces_cons_append]
      obtain ⟨place, comma⟩ := membersAt_comma first inner
        (furtherPieces inner pieces ++ (breakLine outer ++ '\x7d' :: rest)) (fuel + 1) offset
      obtain ⟨standing, node, stop, holds, read⟩ := memberAt_comes first fuel (by omega)
        (stops_furtherPieces inner outer pieces ('\x7d' :: rest)) place
      obtain ⟨tree, final, readRest, values⟩ := ih fuel stop (by omega)
      refine ⟨.member (.ok member.1) standing node tree, final, ?_, ?_⟩
      · rw [comma, read, readRest]
      · exact Members.hold_member holds values member.1 standing

/-- An object is read from its members between brackets. -/
theorem comes_object {pieces : List (List Char)} {members : List (String × Value)}
    (comes : List.Forall₂ MemberComes pieces members) (level : Nat) :
    Comes (bracketed '\x7b' '\x7d' level pieces) (.object members) := by
  intro fuel rest offset enough stops
  have opened (text : List Char) (fuel : Nat) :
      nodeAt (fuel + 1) ⟨'\x7b' :: text, offset⟩ =
        (.object offset (membersAt fuel true ⟨text, offset + 1⟩).1,
          (membersAt fuel true ⟨text, offset + 1⟩).2) := by
    rw [nodeAt, skipSpace_start (not_space_cons rfl _)]
    rfl
  cases comes with
  | nil =>
      rw [bracketed_nil] at enough ⊢
      obtain ⟨fuel, rfl⟩ : ∃ less, fuel = less + 2 :=
        ⟨fuel - 2, by simp only [List.length_cons, List.length_nil] at enough; omega⟩
      refine ⟨.object offset (.closed (offset + 2)), offset + 2, ?_, rfl⟩
      show nodeAt (fuel + 2) ⟨'\x7b' :: '\x7d' :: rest, offset⟩ = _
      rw [opened, membersAt_empty]
  | @cons piece member pieces members first others =>
      rw [bracketed_cons] at enough ⊢
      simp only [List.length_cons, List.length_append, List.length_nil] at enough
      obtain ⟨fuel, rfl⟩ : ∃ less, fuel = less + 3 := ⟨fuel - 3, by omega⟩
      have text : '\x7b' :: (breakLine (level + 1) ++ piece ++ furtherPieces (level + 1) pieces ++
          breakLine level ++ ['\x7d']) ++ rest =
          '\x7b' :: (breakLine (level + 1) ++ (piece ++
            (furtherPieces (level + 1) pieces ++ (breakLine level ++ '\x7d' :: rest)))) := by
        simp
      obtain ⟨place, opening⟩ := membersAt_opening first (level + 1)
        (furtherPieces (level + 1) pieces ++ (breakLine level ++ '\x7d' :: rest)) (fuel + 1)
        (offset + 1)
      obtain ⟨standing, node, stop, holds, read⟩ := memberAt_comes first fuel (by omega)
        (stops_furtherPieces (level + 1) level pieces ('\x7d' :: rest)) place
      obtain ⟨tree, final, readRest, values⟩ := membersAt_furtherPieces others (level + 1) level rest
        fuel stop (by omega)
      refine ⟨.object offset (.member (.ok member.1) standing node tree), final, ?_, ?_⟩
      · rw [text, opened, opening, read, readRest]
      · exact Node.holds_object (Members.hold_member holds values member.1 standing) offset

/-! ## Values -/

/-- What a number starts with. -/
def StartsNumber (c : Char) : Prop := c = '-' ∨ c.isDigit = true

theorem StartsNumber.ne {c other : Char} (starts : StartsNumber c) (notSign : other ≠ '-')
    (notDigit : other.isDigit = false) : c ≠ other := by
  rintro rfl
  rcases starts with sign | digit
  · exact notSign sign
  · rw [notDigit] at digit
    cases digit

theorem StartsNumber.not_space {c : Char} (starts : StartsNumber c) : Cursor.isSpace c = false := by
  simp only [Cursor.isSpace, Bool.or_eq_false_iff, beq_eq_false_iff_ne]
  exact ⟨⟨⟨starts.ne (by decide) rfl, starts.ne (by decide) rfl⟩, starts.ne (by decide) rfl⟩,
    starts.ne (by decide) rfl⟩

theorem nodeAt_number {c : Char} (starts : StartsNumber c) (text : List Char) (fuel offset : Nat) :
    nodeAt (fuel + 1) ⟨c :: text, offset⟩ =
      scalarNode ((readNumber ⟨c :: text, offset⟩).map fun (n, after) => (.number n, after))
        (skipNumber ⟨c :: text, offset⟩) := by
  rw [nodeAt, skipSpace_start (not_space_cons starts.not_space text)]
  dsimp only
  split
  · exact absurd rfl (starts.ne (by decide) rfl)
  · exact absurd rfl (starts.ne (by decide) rfl)
  · exact absurd rfl (starts.ne (by decide) rfl)
  · exact absurd rfl (starts.ne (by decide) rfl)
  · exact absurd rfl (starts.ne (by decide) rfl)
  · exact absurd rfl (starts.ne (by decide) rfl)
  · rcases starts with rfl | digit
    · rfl
    · rw [digit, Bool.or_true, if_pos rfl]

/-- A number is read from what it is written as. -/
theorem comes_number {n : Number} {c : Char} {text : List Char} (starts : StartsNumber c)
    (spells : Spells (c :: text) n) : Comes (c :: text) (.number n) := by
  intro fuel rest offset enough stops
  simp only [List.length_cons] at enough
  obtain ⟨fuel, rfl⟩ : ∃ less, fuel = less + 1 := ⟨fuel - 1, by omega⟩
  obtain ⟨⟨after, read⟩, stop, skip⟩ := spells rest offset stops
  refine ⟨.scalar (.ok (.number n)) stop, stop, ?_, rfl⟩
  rw [List.cons_append] at read skip ⊢
  rw [nodeAt_number starts, read, skip]
  rfl

theorem comes_string (s : String) : Comes (stringChars s) (.string s) := by
  intro fuel rest offset enough stops
  simp only [stringChars, List.length_append, List.length_cons] at enough
  obtain ⟨fuel, rfl⟩ : ∃ less, fuel = less + 1 := ⟨fuel - 1, by omega⟩
  obtain ⟨stop, read, skip⟩ := readString_escaped s rest (offset + 1)
  have text : stringChars s ++ rest = '"' :: (s.toList.flatMap escapeChar ++ '"' :: rest) := by
    simp [stringChars]
  refine ⟨.scalar (.ok (.string s)) stop, stop, ?_, rfl⟩
  rw [text, nodeAt, skipSpace_start (not_space_cons rfl _)]
  simp only [scalarNode, read, skip]
  rfl

theorem comes_word {letters : List Char} {first : Char} {value : Scalar}
    (known : first = 'n' ∧ letters = ['u', 'l', 'l'] ∧ value = .null ∨
      first = 't' ∧ letters = ['r', 'u', 'e'] ∧ value = .bool true ∨
      first = 'f' ∧ letters = ['a', 'l', 's', 'e'] ∧ value = .bool false) :
    Comes (first :: letters) value.value := by
  intro fuel rest offset enough stops
  simp only [List.length_cons] at enough
  obtain ⟨fuel, rfl⟩ : ∃ less, fuel = less + 1 := ⟨fuel - 1, by omega⟩
  refine ⟨.scalar (.ok value) (offset + 1 + letters.length), offset + 1 + letters.length, ?_, rfl⟩
  rcases known with ⟨rfl, rfl, rfl⟩ | ⟨rfl, rfl, rfl⟩ | ⟨rfl, rfl, rfl⟩
  all_goals
    rw [List.cons_append, nodeAt, skipSpace_start (not_space_cons rfl _)]
    rfl

/-- A sign may stand before what starts a number. -/
theorem startsNumber_sign (negative : Bool) {text : List Char}
    (starts : ∃ c rest, text = c :: rest ∧ StartsNumber c) :
    ∃ c rest, signChars negative ++ text = c :: rest ∧ StartsNumber c := by
  cases negative with
  | false => exact starts
  | true => exact ⟨'-', text, rfl, .inl rfl⟩

theorem startsNumber_natChars (n : Nat) : ∃ c text, natChars n = c :: text ∧ StartsNumber c := by
  obtain ⟨c, text, digits, -⟩ := wellStarted_natChars n
  refine ⟨c, text, digits, .inr (allDigits_natChars n c ?_)⟩
  rw [digits]
  exact List.mem_cons_self

theorem startsNumber_magnitude (x : Magnitude) :
    ∃ c text, floatFormat.magnitude x = c :: text ∧ StartsNumber c := by
  obtain ⟨digit, -⟩ := spellsMagnitude_reread x [] 0 (by simp [Stops])
  rw [List.append_nil] at digit
  cases written : floatFormat.magnitude x with
  | nil => simp [written] at digit
  | cons c text =>
      rw [written] at digit
      exact ⟨c, text, rfl, .inr digit⟩

/-- A number is written as one unless it is a double that is not finite. -/
theorem Number.chars_cases (n : Number) :
    (∃ c text, n.chars = c :: text ∧ StartsNumber c) ∨
      ∃ x, n = .float x ∧ x.isFinite = false ∧ n.chars = ['n', 'u', 'l', 'l'] := by
  cases n with
  | unsigned n => exact .inl (startsNumber_natChars n)
  | signed i => exact .inl (startsNumber_sign _ (startsNumber_natChars i.natAbs))
  | float x =>
      cases x with
      | finite negative x => exact .inl (startsNumber_sign _ (startsNumber_magnitude x))
      | infinite negative => exact .inr ⟨_, rfl, rfl, rfl⟩
      | nan => exact .inr ⟨_, rfl, rfl, rfl⟩

theorem Value.prettyAt_number (level : Nat) (n : Number) :
    (Value.number n).prettyAt level = n.chars := by
  rw [Value.prettyAt]

theorem StartsNumber.starts {c : Char} (starts : StartsNumber c) (text : List Char) :
    Starts (c :: text) :=
  ⟨c, text, rfl, starts.not_space, starts.ne (by decide) rfl⟩

/-- What a number comes back as. -/
theorem comes_chars {n : Number} (inRange : n.InRange) : Comes n.chars (Value.number n).reread := by
  rcases n.chars_cases with ⟨c, text, chars, starts⟩ | ⟨x, rfl, infinite, chars⟩
  · rw [chars]
    cases n with
    | unsigned n =>
        have spells := spells_natChars inRange
        rw [show natChars n = c :: text from chars] at spells
        exact comes_number starts spells
    | signed i =>
        have spells := spells_intChars inRange.1 inRange.2
        rw [show intChars i = c :: text from chars] at spells
        exact comes_number starts spells
    | float x =>
        have finite : x.isFinite = true := by
          by_contra infinite
          rw [Number.chars, floatChars, if_neg infinite] at chars
          exact (@StartsNumber.ne c 'n' starts (by decide) rfl) (List.cons.inj chars).1.symm
        have spells := spells_floatChars finite
        rw [show floatChars x = c :: text from chars] at spells
        rw [Value.reread, Value.withFloats, if_pos finite]
        exact comes_number starts spells
  · have null : (Value.number (.float x)).reread = .null := by
      rw [Value.reread, Value.withFloats, infinite, if_neg Bool.false_ne_true]
    rw [chars, null]
    exact comes_word (.inl ⟨rfl, rfl, rfl⟩)

theorem starts_bracketed {opening : Char} (notSpace : Cursor.isSpace opening = false)
    (noEnd : opening ≠ ']') (closing : Char) (level : Nat) (pieces : List (List Char)) :
    Starts (bracketed opening closing level pieces) := by
  cases pieces with
  | nil => exact ⟨opening, _, rfl, notSpace, noEnd⟩
  | cons piece pieces =>
      rw [bracketed_cons]
      exact ⟨opening, _, rfl, notSpace, noEnd⟩

theorem Value.starts_prettyAt (level : Nat) (v : Value) : Starts (v.prettyAt level) := by
  cases v with
  | null => exact ⟨'n', _, rfl, rfl, by decide⟩
  | bool b => cases b <;> exact ⟨_, _, rfl, rfl, by decide⟩
  | string s => exact ⟨'"', _, rfl, rfl, by decide⟩
  | number n =>
      rw [prettyAt_number]
      rcases n.chars_cases with ⟨c, text, chars, starts⟩ | ⟨-, -, -, chars⟩
      · rw [chars]
        exact starts.starts text
      · rw [chars]
        exact ⟨'n', _, rfl, rfl, by decide⟩
  | array items => exact starts_bracketed rfl (by decide) ']' level _
  | object members => exact starts_bracketed rfl (by decide) '\x7d' level _

theorem starts_prettyItems (level : Nat) (items : List Value) :
    ∀ piece ∈ prettyItems level items, Starts piece := by
  induction items with
  | nil => simp [prettyItems]
  | cons item rest ih =>
      intro piece held
      rcases List.mem_cons.mp held with rfl | later
      · exact item.starts_prettyAt level
      · exact ih piece later

mutual

/-- A value in range is read back from what it is written as. -/
theorem Value.comes_prettyAt (level : Nat) :
    (v : Value) → v.InRange → Comes (v.prettyAt level) v.reread
  | .null, _ => comes_word (.inl ⟨rfl, rfl, rfl⟩)
  | .bool true, _ => comes_word (.inr (.inl ⟨rfl, rfl, rfl⟩))
  | .bool false, _ => comes_word (.inr (.inr ⟨rfl, rfl, rfl⟩))
  | .string s, _ => comes_string s
  | .number _, inRange => comes_chars inRange
  | .array items, inRange =>
    comes_array (items_come (level + 1) items inRange) (starts_prettyItems (level + 1) items) level
  | .object members, inRange => comes_object (members_come (level + 1) members inRange) level

theorem items_come (level : Nat) : (items : List Value) → EachItem Number.InRange items →
    List.Forall₂ Comes (prettyItems level items) (itemsWithFloats Binary64.reread items)
  | [], _ => .nil
  | item :: rest, inRange =>
    .cons (item.comes_prettyAt level inRange.1) (items_come level rest inRange.2)

theorem members_come (level : Nat) : (members : List (String × Value)) →
    EachMember Number.InRange members →
    List.Forall₂ MemberComes (prettyMembers level members)
      (membersWithFloats Binary64.reread members)
  | [], _ => .nil
  | (_, value) :: rest, inRange =>
    .cons ⟨value.prettyAt level, rfl, value.starts_prettyAt level,
      value.comes_prettyAt level inRange.1⟩ (members_come level rest inRange.2)

end

/-! ## Whole texts -/

theorem stops_blanks {blanks : List Char} (all : ∀ c ∈ blanks, Cursor.isSpace c) :
    Stops blanks := by
  intro c head
  have blank := all c (List.mem_of_mem_head? head)
  simp only [Cursor.isSpace, Bool.or_eq_true, beq_iff_eq] at blank
  rcases blank with ((rfl | rfl) | rfl) | rfl <;> decide

/-- The tree of a pretty text holds the value, and nothing follows it, also where blanks stand
behind the text. -/
theorem Document.ofText_prettyAt_blanks {v : Value} (inRange : v.InRange) {blanks : List Char}
    (all : ∀ c ∈ blanks, Cursor.isSpace c) :
    (Document.ofText (v.prettyAt 0 ++ blanks)).root.Holds v.reread ∧
      (Document.ofText (v.prettyAt 0 ++ blanks)).tail = none := by
  have fuel : 3 * (v.prettyAt 0).length ≤ 3 * (v.prettyAt 0 ++ blanks).length + 3 := by
    rw [List.length_append]
    omega
  obtain ⟨node, stop, read, holds⟩ := v.comes_prettyAt 0 inRange _ blanks 0 fuel (stops_blanks all)
  have ended : Cursor.skipSpace ⟨blanks ++ [], stop⟩ = ⟨[], stop + blanks.length⟩ :=
    skipSpace_append all (by simp) stop
  rw [List.append_nil] at ended
  have document : Document.ofText (v.prettyAt 0 ++ blanks) = ⟨node, none⟩ := by
    rw [Document.ofText, Cursor.start, read]
    dsimp only
    rw [ended]
    rfl
  rw [document]
  exact ⟨holds, rfl⟩

/-- The tree of a pretty text holds the value, and nothing follows it. -/
theorem Document.ofText_prettyAt {v : Value} (inRange : v.InRange) :
    (Document.ofText (v.prettyAt 0)).root.Holds v.reread ∧
      (Document.ofText (v.prettyAt 0)).tail = none := by
  have whole := Document.ofText_prettyAt_blanks inRange (List.forall_mem_nil _)
  rwa [List.append_nil] at whole

end BlockForge.Json
