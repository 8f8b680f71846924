/-
# Laying out generated files

A generated file is a list of layout steps: lines, blank lines, changes of the level of
indentation, and blocks with a header and a closing line. Running the steps appends text
and ends at a level. A line is indented by its level unless it is blank, when it is written
as it stands, and the level never falls below zero.
-/

import BlockForge.Text.Words

namespace BlockForge.Code

open BlockForge.Text

inductive Step where
  | line (text : List Char)
  /-- Every line of a text at the current level. -/
  | lines (text : List Char)
  | blank
  | indent
  /-- One level further out, if there is one. -/
  | dedent
  /-- A header, steps one level further in, and a closing line. -/
  | block (header close : List Char) (body : List Step)
  | apply (body : List Step)
  deriving Inhabited

def indentUnit (columns : Nat) : List Char := List.replicate columns ' '

/-- What stands before a line at a level: the unit, once for each level. -/
def indentation (columns : Nat) : Nat → List Char
  | 0 => []
  | level + 1 => indentation columns level ++ indentUnit columns

/-- A line at a level, with the newline that ends it. A blank line is not indented. -/
def lineAt (columns level : Nat) (text : List Char) : List Char :=
  (if isBlankLine text then [] else indentation columns level) ++ text ++ ['\n']

theorem indentation_eq (columns level : Nat) :
    indentation columns level = List.replicate (columns * level) ' ' := by
  induction level with
  | zero => rfl
  | succ level ih =>
      rw [indentation, ih, indentUnit, List.replicate_append_replicate, Nat.mul_succ]

theorem lineAt_zero (columns : Nat) (text : List Char) :
    lineAt columns 0 text = text ++ ['\n'] := by
  rw [lineAt, indentation, ite_self, List.nil_append]

/-- A line of a layout is a line of a text that is moved to the right as a whole. -/
theorem lineAt_eq_indentLine (columns level : Nat) (text : List Char) :
    lineAt columns level text = indentLine (columns * level) text ++ ['\n'] := by
  rw [lineAt, indentLine, indentation_eq]
  split
  · rw [List.nil_append]
  · rfl

mutual

/-- The text that a step appends and the level it ends at, for steps of `columns` columns
a level. -/
def Step.run (columns : Nat) : Step → Nat → List Char × Nat
  | .line text, level => (lineAt columns level text, level)
  | .lines text, level => ((Text.lines text).flatMap (lineAt columns level), level)
  | .blank, level => (['\n'], level)
  | .indent, level => ([], level + 1)
  | .dedent, level => ([], level - 1)
  | .block header close body, level =>
    let (inner, reached) := runSteps columns body (level + 1)
    (lineAt columns level header ++ inner ++ lineAt columns (reached - 1) close, reached - 1)
  | .apply body, level => runSteps columns body level

/-- The text that steps append one after the other and the level they end at. -/
def runSteps (columns : Nat) : List Step → Nat → List Char × Nat
  | [], level => ([], level)
  | step :: rest, level =>
    let (first, reached) := step.run columns level
    let (others, final) := runSteps columns rest reached
    (first ++ others, final)

end

/-- The text that steps make from the outermost level. -/
def layout (columns : Nat) (steps : List Step) : List Char :=
  (runSteps columns steps 0).1

/-- Columns a level in class files. -/
def classColumns : Nat := 4

def templateColumns : Nat := 2

end BlockForge.Code
