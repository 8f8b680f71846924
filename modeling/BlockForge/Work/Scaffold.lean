/-
# Starting a description

A new description is made from a name in any spelling. The name in PascalCase is that of
the block, and template and code are derived from it. The description is checked like any
other one, since not every name makes a block, and its file is only written where none is.
-/

import BlockForge.Block.Loading
import BlockForge.Generate.Bundle
import BlockForge.Work.Check

namespace BlockForge.Work

open BlockForge.Files BlockForge.Generate

/-- The field that every new description starts with. -/
def starterField : Field := { name := "title", label := "Title", kind := .text none }

/-- The repeater that a new description starts with where one is asked for. -/
def starterRepeater : Repeater := ⟨"Items", "title", [starterField]⟩

/-- A new description. -/
def scaffold (name : String) (repeater : Bool) : Description :=
  let blockName := Text.pascalCase name
  { blockName
    template := Text.kebabCase blockName ++ ".tpl"
    code := "cpb_" ++ Text.snakeCase blockName
    displayName := blockName
    about := blockName ++ " block"
    tab := Description.defaultTab
    icon := Description.defaultIcon
    hasRepeater := repeater
    fields := [starterField]
    repeater := if repeater then some starterRepeater else none }

/-- Why a description was not started. -/
inductive InitFailure where
  | badName (name : String) (issues : List Issue)
  | notWritten (fault : FileFault)
  deriving DecidableEq

def InitFailure.messages : InitFailure → List String
  | .badName name issues =>
    ["'" ++ name ++ "' does not make a valid block: " ++ "; ".intercalate (issues.map Issue.text)]
  | .notWritten fault => ["Failed to write block description", fault.message]

structure InitReport where
  path : String
  result : WriteResult

def InitReport.lines (report : InitReport) : List Report.Line :=
  (match report.result with
    | .written => [Report.plain "Created block description", Report.added report.path]
    | .skipped => [Report.warning (report.path ++ " already exists, left untouched")])
    ++ [Report.blank,
      Report.heading "Next steps",
      Report.listed ("blockgen check -i " ++ report.path),
      Report.listed ("blockgen bake -i " ++ report.path ++ " -o dist")]

/-- The text of the file of a description. A JSON text ends its last line. -/
def fileText (block : Description) (format : Format) : String :=
  match format with
  | .json => block.text .json ++ "\n"
  | .toml => block.text .toml

def descriptionFile (block : Description) (format : Format) : OutputFile :=
  ⟨Text.kebabCase block.blockName ++ "." ++ format.name, fileText block format⟩

def init (name : String) (repeater : Bool) (format : Format) (directory : String) :
    Action InitFailure InitReport := do
  let block := scaffold name repeater
  unless block.issues.isEmpty do throw (.badName name block.issues)
  let file := descriptionFile block format
  let result ← (file.writeIfMissing directory).mapFault .notWritten
  return ⟨join directory file.name, result⟩

end BlockForge.Work
