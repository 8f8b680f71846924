/-
# Indentation along a text

Indentation is defined by cutting a text into lines. What later proofs need is a
description that goes along the text instead: a margin stands before the text and after
every newline in it, except where a blank line follows. Both descriptions agree, so a
reader that goes from character to character can be compared before and after.

A layout that writes every line of a text at a level indents the text in the same sense.
-/

import BlockForge.Code.Layout

namespace BlockForge.Text

/-- The first line of a text. -/
def opening (text : List Char) : List Char :=
  text.takeWhile (· != '\n')

/-- What indentation puts before a text: nothing where a blank line opens it. -/
def margin (columns : Nat) (text : List Char) : List Char :=
  if isBlankLine (opening text) then [] else List.replicate columns ' '

/-- A text indented from its second line on. Its first line may have begun earlier. -/
def indentRest (columns : Nat) : List Char → List Char
  | [] => []
  | c :: rest =>
    if c = '\n' then '\n' :: (margin columns rest ++ indentRest columns rest)
    else c :: indentRest columns rest

@[simp]
theorem indentRest_nil (columns : Nat) : indentRest columns [] = [] := rfl

@[simp]
theorem indentRest_newline (columns : Nat) (rest : List Char) :
    indentRest columns ('\n' :: rest) = '\n' :: (margin columns rest ++ indentRest columns rest) := by
  simp [indentRest]

theorem indentRest_cons {c : Char} (inside : c ≠ '\n') (columns : Nat) (rest : List Char) :
    indentRest columns (c :: rest) = c :: indentRest columns rest := by
  simp [indentRest, inside]

@[simp]
theorem opening_newline (rest : List Char) : opening ('\n' :: rest) = [] := by
  simp [opening]

theorem opening_cons {c : Char} (inside : c ≠ '\n') (rest : List Char) :
    opening (c :: rest) = c :: opening rest := by
  simp [opening, inside]

@[simp]
theorem lines_nil : lines [] = [[]] := rfl

theorem lines_newline (rest : List Char) : lines ('\n' :: rest) = [] :: lines rest := by
  simp [lines, splitWhere]

theorem lines_cons {c : Char} (inside : c ≠ '\n') {text first : List Char}
    {later : List (List Char)} (cut : lines text = first :: later) :
    lines (c :: text) = (c :: first) :: later := by
  unfold lines splitWhere at cut ⊢
  rw [List.foldr_cons, cut]
  simp [inside]

/-- The first line of a text opens it, and indenting the rest of the text indents every
line but that one. -/
theorem lines_eq_opening_cons (columns : Nat) (text : List Char) :
    ∃ later, lines text = opening text :: later ∧
      indentRest columns text =
        opening text ++ later.flatMap fun line => '\n' :: indentLine columns line := by
  induction text with
  | nil => exact ⟨[], rfl, rfl⟩
  | cons c rest ih =>
      obtain ⟨later, cut, moved⟩ := ih
      by_cases newline : c = '\n'
      · subst newline
        refine ⟨opening rest :: later, by rw [lines_newline, opening_newline, cut], ?_⟩
        rw [indentRest_newline, opening_newline, List.nil_append, List.flatMap_cons, moved]
        by_cases blank : isBlankLine (opening rest)
        · simp [margin, indentLine, blank]
        · simp [margin, indentLine, blank]
      · refine ⟨later, ?_, ?_⟩
        · rw [opening_cons newline, lines_cons newline cut]
        · rw [opening_cons newline, indentRest_cons newline, moved, List.cons_append]

/-- Lines joined are the first one and every other one behind a newline. -/
theorem joinLines_cons (line : List Char) (later : List (List Char)) :
    joinLines (line :: later) = line ++ later.flatMap ('\n' :: ·) := by
  induction later generalizing line with
  | nil => simp [joinLines]
  | cons next later ih =>
      have following := ih next
      simp only [joinLines, List.intercalate] at following ⊢
      simp [List.intersperse, following]

/-- Going along a text and indenting its lines one by one come to the same. -/
theorem indent_eq_margin_append (columns : Nat) (text : List Char) :
    indent columns text = margin columns text ++ indentRest columns text := by
  obtain ⟨later, cut, moved⟩ := lines_eq_opening_cons columns text
  rw [indent, cut, List.map_cons, joinLines_cons, moved, margin, indentLine]
  split
  · simp [List.flatMap_map]
  · simp [List.flatMap_map]

end BlockForge.Text

namespace BlockForge.Code

open BlockForge.Text

/-- Lines at a level, one after the other, are the indented text and a newline. -/
theorem flatMap_lineAt (columns level : Nat) (text : List Char) :
    (Text.lines text).flatMap (lineAt columns level) =
      Text.indent (columns * level) text ++ ['\n'] := by
  obtain ⟨later, cut, _⟩ := lines_eq_opening_cons (columns * level) text
  have ended (line : List Char) (others : List (List Char)) :
      (line :: others).flatMap (lineAt columns level) =
        joinLines ((line :: others).map (indentLine (columns * level))) ++ ['\n'] := by
    induction others generalizing line with
    | nil => simp [lineAt_eq_indentLine, joinLines]
    | cons next others ih =>
        rw [List.flatMap_cons, ih next]
        simp [lineAt_eq_indentLine, joinLines_cons]
  rw [Text.indent, cut, ended]

end BlockForge.Code
