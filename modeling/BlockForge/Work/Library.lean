/-
# Working with the library

Saving, listing, showing and deleting descriptions of a library, each with what it tells.
The operations work on a store of either kind. Deleting looks at the item first, so that it
can tell what was removed.
-/

import BlockForge.Library.Store
import BlockForge.Work.Bake

namespace BlockForge.Work

open BlockForge.Files BlockForge.Library

/-- What is told of a save. -/
def savedLines (receipt : Receipt) : List Report.Line :=
  [Report.plain ((if receipt.replaced then "Updated " else "Saved ") ++ receipt.code),
    Report.detail "id" receipt.id,
    Report.detail "updated" receipt.updatedAt.reportText]

def summaryLines (position : Nat) (summary : Summary) : List Report.Line :=
  let repeater := if summary.hasRepeater then ", repeater" else ""
  [Report.numbered (position + 1)
      (summary.displayName ++ " (" ++ summary.code ++ repeater ++ ") " ++ summary.template),
    Report.detail "   id" summary.id,
    Report.detail "   updated" summary.updatedAt.listText]

def listLines (summaries : List Summary) : List Report.Line :=
  if summaries.isEmpty then [Report.plain "Library is empty"]
  else
    Report.heading ("Blocks (" ++ Report.count summaries.length ++ ")")
      :: summaries.zipIdx.flatMap fun (summary, position) => summaryLines position summary

def deletedLines (item : Item) : List Report.Line :=
  [Report.plain "Deleted", Report.removed (item.code ++ " (" ++ item.id ++ ")")]

/-- What is told of a saved description that cannot be used. -/
def invalidLines (id : String) (issues : List Issue) : List Report.Line :=
  Report.error ("saved config of library item '" ++ id ++ "' is invalid")
    :: issues.map fun issue => Report.error issue.text

variable {m : Type → Type} [Monad m]

def saveBlock (store : Store m) (fresh : String) (block : Description) (now : Timestamp) :
    m (List Report.Line) :=
  return savedLines (← store.change (saving fresh block now))

def updateBlock (store : Store m) (key : String) (block : Description) (now : Timestamp) :
    m (List Report.Line) :=
  return savedLines ((← store.change (updating key block now)).receipt true)

def listBlocks (store : Store m) : m (List Report.Line) :=
  return listLines (← store.query fun table => .ok table.list)

/-- Shows the stored form of an item. -/
def showBlock (store : Store m) (key : String) : m (List Report.Line) :=
  return [Report.plain (← store.query (·.get key)).stored.prettyText]

def deleteBlock (store : Store m) (key : String) : m (List Report.Line) := do
  let item ← store.query (·.get key)
  store.change (deleting key)
  return deletedLines item

/-- The description of an item. -/
def savedBlock (store : Store m) (key : String) : m Description :=
  store.query (·.description key)

/-- Bakes the description of an item into an archive, once it is known. -/
def bakeSaved (store : Store m) (key directory : String) : m (Action BakeFailure BakeReport) :=
  return bake (← savedBlock store key) .archive directory

end BlockForge.Work
