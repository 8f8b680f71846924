/-
# The ends of generated lines

A layout made of lines that do not end in a blank has no line that ends in a blank: indentation goes
in front of a line only where the line has something in it. What is followed through a layout is the
list of its lines, each of them ended by a newline.
-/

import BlockForge.Code.Layout
import BlockForge.Proofs.Text.Split
import Mathlib.Data.List.Basic

namespace BlockForge.Code

open BlockForge.Text

/-- A line that does not end in a blank. -/
structure NeatLine (line : List Char) : Prop where
  inside : '\n' ∉ line
  ending : ∀ c ∈ line.getLast?, isBlank c = false

instance (line : List Char) : Decidable (NeatLine line) :=
  decidable_of_iff ('\n' ∉ line ∧ line.getLast?.toList.all (!isBlank ·))
    ⟨fun ⟨inside, ending⟩ => ⟨inside, by simpa using ending⟩,
      fun ⟨inside, ending⟩ => ⟨inside, by simpa using ending⟩⟩

/-- A text of some lines, each ended by a newline, none of which ends in a blank. -/
def NeatText (text : List Char) : Prop :=
  ∃ ls : List (List Char), (∀ line ∈ ls, NeatLine line) ∧ text = ls.flatMap (· ++ ['\n'])

mutual

/-- The lines that a step writes do not end in a blank. -/
def Step.Neat : Step → Prop
  | .line text => NeatLine text
  | .lines text => ∀ line ∈ Text.lines text, NeatLine line
  | .blank | .indent | .dedent => True
  | .block header close body => NeatLine header ∧ NeatLine close ∧ NeatSteps body
  | .apply body => NeatSteps body

def NeatSteps : List Step → Prop
  | [] => True
  | step :: rest => step.Neat ∧ NeatSteps rest

end

variable {front back text line : List Char} {columns level : Nat}

theorem neatLine_nil : NeatLine [] := ⟨List.not_mem_nil, by simp⟩

/-- Only the end of a line matters, whatever is put before it. -/
theorem NeatLine.append_left (neat : NeatLine back) (there : back ≠ []) (inside : '\n' ∉ front) :
    NeatLine (front ++ back) where
  inside held := (List.mem_append.mp held).elim inside neat.inside
  ending c held := by
    rw [List.getLast?_append, List.getLast?_eq_some_getLast there, Option.some_or] at held
    exact neat.ending c ((List.getLast?_eq_some_getLast there).trans held)

/-- A line stays neat where it is moved to the right. -/
theorem NeatLine.indentLine (neat : NeatLine line) (columns : Nat) :
    NeatLine (indentLine columns line) := by
  rw [Text.indentLine]
  split
  · exact neat
  · rename_i solid
    have there : line ≠ [] := by
      rintro rfl
      exact solid rfl
    refine neat.append_left there fun held => ?_
    cases List.eq_of_mem_replicate held

theorem neatText_nil : NeatText [] := ⟨[], by simp, rfl⟩

theorem NeatText.append (first : NeatText front) (second : NeatText back) :
    NeatText (front ++ back) := by
  obtain ⟨ls, neat, rfl⟩ := first
  obtain ⟨others, neatToo, rfl⟩ := second
  exact ⟨ls ++ others, List.forall_mem_append.mpr ⟨neat, neatToo⟩, List.flatMap_append.symm⟩

theorem NeatLine.neatText_lineAt (neat : NeatLine line) (columns level : Nat) :
    NeatText (lineAt columns level line) :=
  ⟨[_], by simpa using neat.indentLine (columns * level), by simp [lineAt_eq_indentLine]⟩

theorem neatText_flatMap_lineAt {ls : List (List Char)} (neat : ∀ line ∈ ls, NeatLine line)
    (columns level : Nat) : NeatText (ls.flatMap (lineAt columns level)) := by
  induction ls with
  | nil => exact neatText_nil
  | cons first rest ih =>
      obtain ⟨here, later⟩ := List.forall_mem_cons.mp neat
      exact (here.neatText_lineAt columns level).append (ih later)

mutual

theorem Step.Neat.neatText_run : (step : Step) → step.Neat → (columns level : Nat) →
    NeatText (step.run columns level).1
  | .line _, neat, columns, level => neat.neatText_lineAt columns level
  | .lines _, neat, columns, level => neatText_flatMap_lineAt neat columns level
  | .blank, _, _, _ => ⟨[[]], by simpa using neatLine_nil, rfl⟩
  | .indent, _, _, _ => neatText_nil
  | .dedent, _, _, _ => neatText_nil
  | .block header close body, ⟨opens, closes, inner⟩, columns, level =>
    ((opens.neatText_lineAt columns level).append
      (neatText_runSteps body inner columns (level + 1))).append (closes.neatText_lineAt columns _)
  | .apply body, neat, columns, level => neatText_runSteps body neat columns level

theorem neatText_runSteps : (steps : List Step) → NeatSteps steps → (columns level : Nat) →
    NeatText (runSteps columns steps level).1
  | [], _, _, _ => neatText_nil
  | step :: rest, ⟨here, later⟩, columns, level =>
    (here.neatText_run step columns level).append (neatText_runSteps rest later columns _)

end

/-- The lines of a text that starts with a line. -/
theorem lines_append_newline (inside : '\n' ∉ line) (rest : List Char) :
    Text.lines (line ++ '\n' :: rest) = line :: Text.lines rest := by
  have own : splitWhere (· == '\n') line = [line] :=
    splitWhere_of_all fun c held => beq_eq_false_iff_ne.mpr fun same => inside (same ▸ held)
  rw [Text.lines, splitWhere_separated (by rfl), own]
  rfl

/-- The lines of a text of lines are these lines and an empty one. -/
theorem lines_flatMap_newline {ls : List (List Char)} (inside : ∀ line ∈ ls, '\n' ∉ line) :
    Text.lines (ls.flatMap (· ++ ['\n'])) = ls ++ [[]] := by
  induction ls with
  | nil => rfl
  | cons first rest ih =>
      obtain ⟨here, later⟩ := List.forall_mem_cons.mp inside
      rw [List.flatMap_cons, List.append_assoc, List.singleton_append, lines_append_newline here,
        ih later, List.cons_append]

/-- No line of a neat text ends in a blank. -/
theorem NeatText.ending (neat : NeatText text) {line : List Char} (among : line ∈ Text.lines text) :
    ∀ c ∈ line.getLast?, isBlank c = false := by
  obtain ⟨ls, each, rfl⟩ := neat
  rw [lines_flatMap_newline fun line held => (each line held).inside] at among
  rcases List.mem_append.mp among with own | last
  · exact (each line own).ending
  · rw [List.mem_singleton.mp last]
    simp

/-! ## The end of a text -/

/-- A text that ends in exactly one newline. -/
def EndsOnce (text : List Char) : Prop := ∃ front c, text = front ++ [c, '\n'] ∧ c ≠ '\n'

theorem EndsOnce.append_left (ends : EndsOnce back) (front : List Char) :
    EndsOnce (front ++ back) := by
  obtain ⟨before, c, rfl, other⟩ := ends
  exact ⟨front ++ before, c, (List.append_assoc _ _ _).symm, other⟩

/-- A line is its text between blanks. -/
theorem lineAt_eq (columns level : Nat) (text : List Char) :
    ∃ margin, (∀ c ∈ margin, c = ' ') ∧ lineAt columns level text = margin ++ (text ++ ['\n']) := by
  rw [lineAt_eq_indentLine, Text.indentLine]
  split
  · exact ⟨[], by simp, rfl⟩
  · exact ⟨_, fun c held => List.eq_of_mem_replicate held, List.append_assoc _ _ _⟩

theorem NeatLine.endsOnce_lineAt (neat : NeatLine line) (there : line ≠ []) (columns level : Nat) :
    EndsOnce (lineAt columns level line) := by
  obtain ⟨margin, -, same⟩ := lineAt_eq columns level line
  have last : line = line.dropLast ++ [line.getLast there] :=
    (List.dropLast_append_getLast there).symm
  refine ⟨margin ++ line.dropLast, line.getLast there, ?_, fun newline => ?_⟩
  · rw [same]
    nth_rewrite 1 [last]
    simp
  · exact neat.inside (newline ▸ List.getLast_mem there)

/-- A block ends in its closing line. -/
theorem endsOnce_run_block {close : List Char} (neat : NeatLine close) (there : close ≠ [])
    (header : List Char) (body : List Step) (columns level : Nat) :
    EndsOnce ((Step.block header close body).run columns level).1 := by
  rw [Step.run]
  exact (neat.endsOnce_lineAt there columns _).append_left _

/-- Steps end as the last one of them does. -/
theorem endsOnce_runSteps {last : Step} (ends : ∀ level, EndsOnce (last.run columns level).1)
    (steps : List Step) (level : Nat) :
    EndsOnce (runSteps columns (steps ++ [last]) level).1 := by
  induction steps generalizing level with
  | nil =>
      show EndsOnce ((last.run columns level).1 ++ [])
      rw [List.append_nil]
      exact ends level
  | cons step rest ih => exact (ih _).append_left _

end BlockForge.Code
