/-
# Libraries in memory and in files

The same operations on a table are carried out by two kinds of stores. One holds the table
itself. The other one keeps it in a file: every operation reads the document, and one that
changes the table writes it again, first beside the document and then in its place, so
that a failure leaves the document as it was.

A file beside the document is locked while an operation is under way. Here it is only made:
operations follow one another. A library without a document is empty, and looking at it
makes no file.
-/

import BlockForge.Files.Tree
import BlockForge.Library.Document

namespace BlockForge.Library

open BlockForge.Files

variable {α : Type}

/-- Looks at a table. -/
abbrev Query (α : Type) := Table → Except Failure α

/-- Changes a table. -/
abbrev Change (α : Type) := Table → Except Failure (α × Table)

def saving (fresh : String) (block : Description) (now : Timestamp) : Change Receipt :=
  fun table => table.upsert fresh block now

def updating (key : String) (block : Description) (now : Timestamp) : Change Item :=
  fun table => table.update key block now

def deleting (key : String) : Change Unit :=
  fun table => (table.delete key).map ((), ·)

/-- A place that keeps a table: how a table is looked at and how it is changed there. -/
structure Store (m : Type → Type) where
  query : {α : Type} → Query α → m α
  /-- Changes the table. A change that fails leaves it as it was. -/
  change : {α : Type} → Change α → m α

/-- Actions on a table in memory. -/
abbrev InMemory (α : Type) := ExceptT Failure (StateM Table) α

def memoryStore : Store InMemory where
  query query := do
    match query (← get) with
    | .ok result => return result
    | .error failure => throw failure
  change change := do
    match change (← get) with
    | .ok (result, changed) =>
      set changed
      return result
    | .error failure => throw failure

/-- The path of the file that is locked. -/
def lockPath (path : String) : String := path ++ ".lock"

/-- The path that a document is written to at first. -/
def draftPath (path : String) : String := path ++ ".tmp"

/-- Tells of a file that could not be used. -/
def atPath (path : String) (action : Action FileFault α) : Action Failure α :=
  action.mapFault (.inaccessible path)

/-- Makes the file that is locked, if it is not there. -/
def lock (path : String) : Action Failure Unit :=
  atPath (lockPath path) (Action.change (·.touch (lockPath path)))

def load (path : String) : Action Failure Table := do
  if ← Action.look (·.isThere path) then
    let text ← atPath path (Action.take (·.readText path))
    Action.take fun _ => tableOfText text
  else return .empty

def save (path : String) (table : Table) : Action Failure Unit := do
  atPath (draftPath path)
    (Action.change (·.write (draftPath path) (.text (documentText table))))
  atPath path (Action.change (·.move (draftPath path) path))

def makeParent (path : String) : Action Failure Unit :=
  match parent? path with
  | none => return ()
  | some parent =>
    if parent.isEmpty then return () else atPath parent (makeDirectories parent)

def queryFile (path : String) (query : Query α) : Action Failure α := do
  if ← Action.look (·.isThere path) then
    lock path
    let table ← load path
    Action.take fun _ => query table
  else Action.take fun _ => query .empty

def changeFile (path : String) (change : Change α) : Action Failure α := do
  makeParent path
  lock path
  let table ← load path
  let (result, changed) ← Action.take fun _ => change table
  save path changed
  return result

def fileStore (path : String) : Store (Action Failure) where
  query := queryFile path
  change := changeFile path

end BlockForge.Library
