/-
# Reports, and the check of a file

What a command tells is a list of lines, each of which belongs to one of two streams. The
lines have a few forms, one function each; a line may hold line breaks where it shows a
whole text.

A description is loaded from a file and checked. Broken rules and warnings are what a
check reports; a file that cannot be read at all is a failure.
-/

import BlockForge.Block.Loading
import BlockForge.Decimal.Notation
import BlockForge.Files.Tree

/-! ## Lines of reports -/

namespace BlockForge.Report

/-- Where a line belongs. -/
inductive Stream where
  | out
  | err
  deriving DecidableEq

structure Line where
  stream : Stream
  text : String
  deriving DecidableEq

def plain (text : String) : Line := ⟨.out, text⟩

def blank : Line := plain ""

/-- The heading of a list. -/
def heading (name : String) : Line := plain (name ++ ":")

def named (name value : String) : Line := plain (name ++ ": " ++ value)

/-- A name with its value, below something. -/
def detail (name value : String) : Line := named ("  " ++ name) value

def numbered (number : Nat) (text : String) : Line :=
  plain ("  " ++ String.ofList (natChars number) ++ ". " ++ text)

def listed (text : String) : Line := plain ("  - " ++ text)

/-- Something that was made. -/
def added (text : String) : Line := plain ("  + " ++ text)

/-- Something that was removed. -/
def removed (text : String) : Line := plain ("  - " ++ text)

/-- A line that separates what follows. -/
def divider (label : String) : Line := plain ("── " ++ label ++ " ──")

def warning (text : String) : Line := ⟨.err, "warning: " ++ text⟩

def error (text : String) : Line := ⟨.err, "error: " ++ text⟩

/-- A number as text. -/
def count (n : Nat) : String := String.ofList (natChars n)

end BlockForge.Report

/-! ## Checks -/

namespace BlockForge.Work

open BlockForge.Files

/-- Loads a description from a file, whose extension tells its format. -/
def loadFile (tree : FileTree) (path : String) : Except LoadError Description := do
  let format ← Format.ofPath path
  match tree.readText path with
  | .ok text => Description.ofText format text
  | .error fault => throw (.unreadable path fault)

structure CheckReport where
  path : String
  block : Option Description
  errors : List Issue
  warnings : List Issue

namespace CheckReport

def isValid (report : CheckReport) : Bool := report.errors.isEmpty

/-- What is told of a description that breaks no rule. -/
def blockLines (block : Description) : List Report.Line :=
  [Report.blank,
    Report.detail "block" block.blockName,
    Report.detail "fields" (Report.count block.fields.length)]
    ++ match block.activeRepeater with
      | some repeater => [Report.detail "repeater fields" (Report.count repeater.fields.length)]
      | none => []

def lines (report : CheckReport) : List Report.Line :=
  report.errors.map (fun issue => Report.error issue.text)
    ++ report.warnings.map (fun issue => Report.warning issue.text)
    ++ (if report.errors.isEmpty && report.warnings.isEmpty then [] else [Report.blank])
    ++ (if report.isValid then
        Report.plain ("✓ " ++ report.path ++ " is valid")
          :: (report.block.map blockLines).getD []
      else [])

end CheckReport

def check (tree : FileTree) (path : String) : Except LoadError CheckReport :=
  match loadFile tree path with
  | .ok block => .ok ⟨path, some block, [], block.warnings⟩
  | .error (.invalid issues) => .ok ⟨path, none, issues, []⟩
  | .error other => .error other

end BlockForge.Work
