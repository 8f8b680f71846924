/-
# The program

What there is of files is copied into a tree, a command runs on the tree, and what it
changed is done to the files. A command reads the files that its arguments name and looks
at those that it writes. The first ones are copied at once; when the command changes a
place that was not copied, that one is copied too and the command runs again on the tree.
-/

import BlockForge.Command.Run
import BlockForge.Files.Archive
import BlockForge.Files.Tree
import BlockForge.Library.Item
import BlockForge.Time.Timestamp
import Std.Time.DateTime.Timestamp

namespace BlockForge.Main

open BlockForge.Files

def entryAt? (place : Place) : IO (Option Entry) := do
  match ← (IO.FS.readFile place.path).toBaseIO with
  | .ok text => return some (.file (.text text))
  | .error (.inappropriateType ..) => return some .directory
  | .error (.noFileOrDirectory ..) => return none
  | .error (.invalidArgument ..) => return none
  | .error _ => return some (.file .other)

/-- Copies what is at a place into a tree, and the directories on the way there. `above` is
the place that was reached. -/
def copyFrom (tree : FileTree) (above : Place) : Place → IO FileTree
  | [] => return tree
  | name :: rest => do
    let place := above ++ [name]
    let tree ← match tree.get? place with
      | some _ => pure tree
      | none =>
        match ← entryAt? place with
        | some entry => pure (tree.set place entry)
        | none => pure tree
    if tree.get? place = some .directory then copyFrom tree place rest else return tree

/-- Copies what is at some places into a tree. -/
def copy (tree : FileTree) (places : List Place) : IO FileTree :=
  places.foldlM (fun tree place => copyFrom tree [] place) tree

/-- Does a change to the file system. -/
def perform : Alteration → IO Unit
  | .put place .directory => IO.FS.createDir place.path
  | .put place (.file content) =>
    match content.bytes? with
    | some bytes => IO.FS.writeBinFile place.path ⟨bytes.toArray⟩
    | none => return ()
  | .drop place => IO.FS.removeFile place.path

/-- Runs a command on copies of more and more places, at most `fuel` times, and does what it
changed to the file system. -/
def settle (command : StateM FileTree Command.Outcome) :
    Nat → FileTree → List Place → IO Command.Outcome
  | fuel, tree, seen => do
    let (outcome, after) := command.run tree
    let changes := tree.changesTo after
    let unseen := (changes.map (·.place)).filter fun place => !seen.contains place
    match fuel with
    | 0 => return .failure ["Too many files"]
    | fuel + 1 =>
      if unseen.isEmpty then
        match ← (changes.forM perform).toBaseIO with
        | .ok () => return outcome
        | .error fault => return .failure [toString fault]
      else settle command fuel (← copy tree unseen) (seen ++ unseen)

/-- The time of the clock, or the start of the calendar where it shows none. -/
def currentTime : IO Timestamp := do
  let count := (← Std.Time.Timestamp.now).toNanosecondsSinceUnixEpoch.toInt.toNat
  return (Timestamp.ofNanoseconds? count).getD
    ⟨Date.origin, 0, 0, 0, 0, by decide⟩

def run (arguments : List String) : IO UInt32 := do
  let environment ← IO.getEnv "BLOCKGEN_LIBRARY"
  let now ← currentTime
  let fresh := Library.identifier (← IO.getRandomBytes 16).toList
  let base := names (← IO.currentDir).toString
  let places := base :: (Command.inputsOf arguments environment).flatMap (placesOf base)
  let tree ← copy { FileTree.empty with base } places
  let outcome ← settle (Command.runProgram arguments environment fresh now) 64 tree places
  let output ← IO.getStdout
  let errors ← IO.getStderr
  outcome.out.forM output.putStrLn
  outcome.err.forM errors.putStrLn
  return UInt32.ofNat outcome.exit

end BlockForge.Main

/-- Runs the program with the arguments of the command line. -/
def main (arguments : List String) : IO UInt32 := BlockForge.Main.run arguments
