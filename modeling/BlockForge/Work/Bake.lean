/-
# Baking a description

The files of a block are shown, written into a directory, or bundled into an archive there.
All three deliver the same two files, and warnings about the description come first.
-/

import BlockForge.Generate.Bundle
import BlockForge.Work.Check

namespace BlockForge.Work

open BlockForge.Files BlockForge.Generate

/-- What is done with the files of a block. -/
inductive Delivery where
  | preview
  | files
  | archive
  deriving DecidableEq

/-- What was done with the files of a block. -/
inductive Delivered where
  | previewed (files : List OutputFile)
  | written (paths : List String)
  | archived (path : String)
  deriving DecidableEq

/-- Why the files of a block were not delivered. -/
inductive BakeFailure where
  | notWritten (fault : FileFault)
  | notBundled (name : String)
  | notArchived (fault : ArchiveFault)
  deriving DecidableEq

def BakeFailure.messages : BakeFailure → List String
  | .notWritten fault => ["Failed to write generated files", fault.message]
  | .notBundled name =>
    ["Failed to build archive", repeatedEntryMessage name,
      "invalid Zip archive: Duplicate filename: " ++ name]
  | .notArchived fault => "Failed to write archive" :: fault.messages

structure BakeReport where
  blockName : String
  code : String
  warnings : List Issue
  delivered : Delivered
  deriving DecidableEq

/-- The text without the line breaks that end it. -/
def trimmedText (text : String) : String :=
  String.ofList ((text.toList.reverse.dropWhile (· == '\n')).reverse)

def BakeReport.lines (report : BakeReport) : List Report.Line :=
  let title := Report.plain (report.blockName ++ " (" ++ report.code ++ ")")
  report.warnings.map (fun issue => Report.warning issue.text) ++
    match report.delivered with
    | .written paths =>
      [title, Report.blank, Report.heading "Generated"] ++ paths.map Report.added
    | .archived path => [title, Report.blank, Report.named "Archive" path]
    | .previewed files =>
      files.flatMap (fun file => [Report.divider file.name, Report.plain (trimmedText file.text)])
        ++ [Report.divider "Summary",
          Report.plain (Report.count files.length ++ " files would be generated")]

/-- Writes files into a directory one after the other and gives their paths. -/
def writeFiles (directory : String) : List OutputFile → Action FileFault (List String)
  | [] => return []
  | file :: rest => do
    file.write directory
    return join directory file.name :: (← writeFiles directory rest)

/-- Delivers the files of a block. -/
def deliver (block : Description) (delivery : Delivery) (directory : String) :
    Action BakeFailure Delivered :=
  match delivery with
  | .preview => return .previewed (Generate.files block)
  | .files => do
    let paths ← (writeFiles directory (Generate.files block)).mapFault .notWritten
    return .written paths
  | .archive =>
    match bundle (Generate.files block) with
    | .error name => throw (.notBundled name)
    | .ok entries => do
      let name := archiveName block.template block.code
      let path ← (writeArchive name entries directory).mapFault .notArchived
      return .archived path

def bake (block : Description) (delivery : Delivery) (directory : String) :
    Action BakeFailure BakeReport := do
  let delivered ← deliver block delivery directory
  return ⟨block.blockName, block.code, block.warnings, delivered⟩

end BlockForge.Work
