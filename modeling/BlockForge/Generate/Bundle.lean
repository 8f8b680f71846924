/-
# Generated files

A block has two generated files, the class and the template. They are written into a
directory one after the other, or bundled into one archive that is named after the
template. An archive cannot hold two files of one name; only a description that was not
checked can ask for that.
-/

import BlockForge.Block.Validation
import BlockForge.Files.Tree
import BlockForge.Generate.Template

namespace BlockForge.Generate

open BlockForge.Files

structure OutputFile where
  name : String
  text : String
  deriving DecidableEq

/-- The files of a block: the class and then the template. -/
def files (block : Description) : List OutputFile :=
  [⟨classFileName block, classText block⟩, ⟨block.template, templateText block⟩]

/-- The name of the archive of a block: that of the template with the ending of archives,
or the code where the template has another ending. -/
def archiveName (template code : String) : String :=
  match templateSuffix.isSuffixOf? template.toList with
  | some stem => String.ofList stem ++ ".zip"
  | none => code ++ ".zip"

/-- Bundles files in order. The name of the first file that repeats an earlier one is
refused. -/
def bundleAfter : List String → List OutputFile → Except String (List (String × String))
  | _, [] => .ok []
  | earlier, file :: rest =>
    if earlier.contains file.name then .error file.name
    else (bundleAfter (file.name :: earlier) rest).map ((file.name, file.text) :: ·)

def bundle (files : List OutputFile) : Except String (List (String × String)) :=
  bundleAfter [] files

def repeatedEntryMessage (name : String) : String :=
  "Failed to start entry '" ++ name ++ "'"

/-- Writes a file into a directory, which is made where it is not there. -/
def OutputFile.write (file : OutputFile) (directory : String) : Action FileFault Unit := do
  let path := join directory file.name
  match parent? path with
  | some parent => makeDirectories parent
  | none => pure ()
  Action.change fun tree => tree.write path (.text file.text)

/-- What became of a file that is written only where nothing is. -/
inductive WriteResult where
  | written
  | skipped
  deriving DecidableEq

/-- Writes a file into a directory unless something is there. -/
def OutputFile.writeIfMissing (file : OutputFile) (directory : String) :
    Action FileFault WriteResult := do
  if (← Action.look fun tree => tree.isThere (join directory file.name)) then
    return .skipped
  else
    file.write directory
    return .written

/-- Why an archive was not written: its directory was not made, or its file not written. -/
inductive ArchiveFault where
  | directory (path : String) (fault : FileFault)
  | file (path : String) (fault : FileFault)
  deriving DecidableEq

def ArchiveFault.messages : ArchiveFault → List String
  | .directory path fault => ["Failed to create " ++ path, fault.message]
  | .file path fault => ["Failed to write " ++ path, fault.message]

def writeArchive (name : String) (entries : List (String × String)) (directory : String) :
    Action ArchiveFault String := do
  (makeDirectories directory).mapFault (.directory directory)
  let path := join directory name
  (Action.change fun tree => tree.write path (.archive entries)).mapFault (.file path)
  return path

end BlockForge.Generate
