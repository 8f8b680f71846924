/-
# A change that fails changes nothing

A table in memory is changed in place: an item is taken out and put back in another form. This is
told here step by step, and it comes to the same as making the changed table at once. So whatever
can fail does so before the first step that changes the table.

A document is only changed by moving its draft over it, which is the last thing that is done. What
comes before it may fail in any way that a file system can think of. It is asked for operations
that alter no other file than the one at their path, if any, and whose moving leaves the target
alone where it fails. Nothing else is asked: which answers it gives, when it fails, and what it
leaves half done is up to it. The document is where it was and holds what it held, since its path
leads to another place than those of the draft and of the file that is locked.
-/

import BlockForge.Proofs.Files.Sibling
import BlockForge.Proofs.Library.Calls
import BlockForge.Proofs.Library.Loaded
import Mathlib.Data.Bool.AllAny

namespace BlockForge.Library

open BlockForge.Files

variable {α : Type} {table after : Table} {failure : Failure}

/-! ## Changing a table in place -/

def takeInPlace (key : String) : InMemory Item := do
  match (← get).find? key with
  | none => throw (.notFound key)
  | some item =>
    modify (·.erase key)
    return item

def putInPlace (item : Item) : InMemory Unit :=
  modify (·.insert item.id item)

/-- Saves a description: the item of its code is taken out, changed and put back, or a new item is
put there. -/
def upsertInPlace (fresh : String) (block : Description) (now : Timestamp) : InMemory Receipt := do
  match (← get).findCode? block.code with
  | some owner =>
    let item ← takeInPlace owner.id
    putInPlace (item.replace block now)
    return (item.replace block now).receipt true
  | none =>
    putInPlace (Item.make fresh block now)
    return (Item.make fresh block now).receipt false

/-- Overwrites the item under a key: it is taken out, changed and put back. -/
def updateInPlace (key : String) (block : Description) (now : Timestamp) : InMemory Item := do
  if ((← get).find? key).isNone then throw (.notFound key)
  match ((← get).findCode? block.code).filter (·.id != key) with
  | some owner => throw (.conflict block.code owner.id)
  | none =>
    let item ← takeInPlace key
    putInPlace (item.replace block now)
    return item.replace block now

/-- A call of a table in memory, step by step. -/
def Call.inPlace : Call → InMemory Reply
  | save fresh block now => return .saved (← upsertInPlace fresh block now)
  | overwrite key block now => return .overwritten (← updateInPlace key block now)
  | remove key => return (fun _ => .removed) (← takeInPlace key)
  | looking => looking.on memoryStore

/-- What an operation that gives a changed table does to a table. -/
def applied (table : Table) : Except Failure (α × Table) → Except Failure α × Table
  | .ok (result, changed) => (.ok result, changed)
  | .error failure => (.error failure, table)

section Sequences

variable {β : Type} {action : InMemory α} {answer : Except Failure (α × Table)}

/-- What comes after a step starts with the table that the step leaves. -/
theorem outcome_bind_applied {next : α → InMemory β} {f : α × Table → Except Failure (β × Table)}
    (spec : outcome action table = applied table answer)
    (follows : ∀ result changed,
      outcome (next result) changed = applied table (f (result, changed))) :
    outcome (action >>= next) table = applied table (answer >>= f) := by
  cases answer with
  | error failure => exact outcome_bind_of_error spec
  | ok given => exact (outcome_bind_of_ok spec).trans (follows given.1 given.2)

theorem outcome_map_applied (spec : outcome action table = applied table answer) (f : α → β) :
    outcome (do return f (← action)) table =
      applied table (answer.map fun given => (f given.1, given.2)) := by
  have mapped : outcome (do return f (← action)) table =
      applied table (answer >>= fun given => .ok (f given.1, given.2)) :=
    outcome_bind_applied spec fun _ _ => rfl
  rw [mapped]
  cases answer <;> rfl

end Sequences

theorem outcome_takeInPlace (key : String) (table : Table) :
    outcome (takeInPlace key) table = applied table (table.take key) := by
  rw [takeInPlace, Table.take]
  refine (outcome_bind_of_ok rfl).trans ?_
  cases table.find? key <;> rfl

theorem outcome_upsertInPlace (fresh : String) (block : Description) (now : Timestamp)
    (table : Table) :
    outcome (upsertInPlace fresh block now) table = applied table (table.upsert fresh block now) := by
  rw [upsertInPlace, Table.upsert]
  refine (outcome_bind_of_ok rfl).trans ?_
  cases table.findCode? block.code with
  | none => rfl
  | some owner => exact outcome_bind_applied (outcome_takeInPlace owner.id table) fun _ _ => rfl

theorem outcome_updateInPlace (key : String) (block : Description) (now : Timestamp)
    (table : Table) :
    outcome (updateInPlace key block now) table = applied table (table.update key block now) := by
  rw [updateInPlace, Table.update]
  refine (outcome_bind_of_ok rfl).trans ?_
  dsimp only
  cases (table.find? key).isNone with
  | true => rfl
  | false =>
      refine (outcome_bind_of_ok rfl).trans ?_
      refine (outcome_bind_of_ok rfl).trans ?_
      cases (table.findCode? block.code).filter (·.id != key) with
      | some owner => rfl
      | none => exact outcome_bind_applied (outcome_takeInPlace key table) fun _ _ => rfl

theorem perform_alter (change : Change Reply) (table : Table) :
    (Operation.alter change).perform id table = applied table (change table) := by
  rw [Operation.perform]
  cases change table <;> rfl

/-- Changing a table in place comes to the same as changing it at once. -/
theorem outcome_inPlace (call : Call) (table : Table) :
    outcome call.inPlace table = outcome (call.on memoryStore) table := by
  rw [outcome_on_memoryStore]
  cases call with
  | save fresh block now =>
      rw [Call.operation, perform_alter]
      exact outcome_map_applied (outcome_upsertInPlace fresh block now table) Reply.saved
  | overwrite key block now =>
      rw [Call.operation, perform_alter]
      exact outcome_map_applied (outcome_updateInPlace key block now table) Reply.overwritten
  | remove key =>
      rw [Call.operation, perform_alter, deleting, Table.delete]
      refine (outcome_map_applied (outcome_takeInPlace key table) fun _ => Reply.removed).trans ?_
      cases table.take key <;> rfl
  | get key => exact outcome_on_memoryStore (.get key) table
  | getCode code => exact outcome_on_memoryStore (.getCode code) table
  | list => exact outcome_on_memoryStore .list table
  | description key => exact outcome_on_memoryStore (.description key) table

/-- A call that fails leaves a table as it is. -/
theorem eq_of_outcome_inPlace {call : Call}
    (failed : outcome call.inPlace table = (.error failure, after)) : after = table := by
  rw [outcome_inPlace, outcome_on_memoryStore] at failed
  cases operated : call.operation with
  | look query =>
      rw [operated] at failed
      exact (Prod.mk.inj failed).2.symm
  | alter change =>
      rw [operated, perform_alter] at failed
      cases answered : change table with
      | error refused =>
          rw [answered] at failed
          exact (Prod.mk.inj failed).2.symm
      | ok given =>
          rw [answered] at failed
          cases failed

/-! ## File systems that fail -/

/-- What a file system does for a library. It may fail and leave things half done, but it alters
no file that it was not asked for. -/
structure Disk where
  makeDirectories : String → Action FileFault Unit
  touch : String → Action FileFault Unit
  isThere : String → FileTree → Bool
  readText : String → FileTree → Except FileFault String
  write : String → String → Action FileFault Unit
  move : String → String → Action FileFault Unit
  makes : ∀ path, (makeDirectories path).AltersOnly []
  touches : ∀ path, (touch path).AltersOnly [path]
  writes : ∀ path text, (write path text).AltersOnly [path]
  /-- A move that fails leaves its target alone. -/
  moves : ∀ source target, (move source target).FailsAltering [source]

/-- The file system that fails for no other reason than what is in its tree. -/
def Disk.ofTree : Disk where
  makeDirectories := Files.makeDirectories
  touch path := Action.change (·.touch path)
  isThere path tree := tree.isThere path
  readText path tree := tree.readText path
  write path text := Action.change (·.write path (.text text))
  move source target := Action.change (·.move source target)
  makes := altersOnly_makeDirectories
  touches _ := .change fun _ _ => FileTree.altersOnly_of_touch
  writes _ _ := .change fun _ _ written => (FileTree.spec_of_write written).1
  moves _ _ := (Action.failsAltering_change _).mono (List.nil_subset _)

namespace Disk

variable (disk : Disk) (path : String)

def makeParent : Action Failure Unit :=
  match parent? path with
  | none => return ()
  | some parent =>
    if parent.isEmpty then return () else atPath parent (disk.makeDirectories parent)

def lock : Action Failure Unit :=
  atPath (lockPath path) (disk.touch (lockPath path))

def load : Action Failure Table := do
  if ← Action.look (disk.isThere path) then
    let text ← atPath path (Action.take (disk.readText path))
    Action.take fun _ => tableOfText text
  else return .empty

def save (table : Table) : Action Failure Unit := do
  atPath (draftPath path) (disk.write (draftPath path) (documentText table))
  atPath path (disk.move (draftPath path) path)

def changeFile (change : Change α) : Action Failure α := do
  disk.makeParent path
  disk.lock path
  let table ← disk.load path
  let (result, changed) ← Action.take fun _ => change table
  disk.save path changed
  return result

end Disk

theorem changeFile_ofTree (path : String) (change : Change α) :
    Disk.ofTree.changeFile path change = changeFile path change :=
  rfl

namespace Disk

variable {disk : Disk} {path : String}

theorem altersOnly_makeParent : (disk.makeParent path).AltersOnly [] := by
  rw [makeParent]
  split
  · exact .pure [] ()
  · split
    · exact .pure [] ()
    · exact (disk.makes _).mapFault _

theorem altersOnly_lock : (disk.lock path).AltersOnly [lockPath path] :=
  (disk.touches _).mapFault _

theorem altersOnly_load : (disk.load path).AltersOnly [] := by
  refine .bind (.look [] _) fun there => ?_
  cases there with
  | false => exact .pure [] _
  | true => exact .bind ((Action.AltersOnly.take [] _).mapFault _) fun text => .take [] _

theorem failsAltering_save (table : Table) : (disk.save path table).FailsAltering [draftPath path] :=
  ((disk.writes _ _).mapFault _).failsAltering_bind fun _ => (disk.moves _ _).mapFault _

theorem failsAltering_changeFile (change : Change α) :
    (disk.changeFile path change).FailsAltering [lockPath path, draftPath path] := by
  refine (altersOnly_makeParent.mono (List.nil_subset _)).failsAltering_bind fun _ => ?_
  refine (altersOnly_lock.mono (by simp)).failsAltering_bind fun _ => ?_
  refine (altersOnly_load.mono (List.nil_subset _)).failsAltering_bind fun table => ?_
  refine (Action.AltersOnly.take _ _).failsAltering_bind fun given => ?_
  exact ((failsAltering_save given.2).mono (by simp)).bind_pure fun _ => given.1

end Disk

/-! ## The document -/

theorem isSuffix_lock : IsSuffix ".lock" where
  inside := List.all_iff_forall_prop.mp (by decide +kernel)
  long := by decide +kernel

theorem isSuffix_draft : IsSuffix ".tmp" where
  inside := List.all_iff_forall_prop.mp (by decide +kernel)
  long := by decide +kernel

/-- A path leads where it led, and there is the same file as before, or still none. -/
structure SameDocument (path : String) (before after : FileTree) : Prop where
  leads : ∀ place, before.resolve path = .ok place → after.resolve path = .ok place
  content : ∀ place, after.resolve path = .ok place →
    after.contentAt? place = before.contentAt? place

theorem sameDocument_of_altersOnly {path : String} {before after : FileTree}
    (alters : FileTree.AltersOnly [lockPath path, draftPath path] before after) :
    SameDocument path before after := by
  refine ⟨fun place leads => alters.grown.resolve leads, fun place leads => ?_⟩
  refine alters.files place fun sibling among leadsToo => ?_
  simp only [List.mem_cons, List.not_mem_nil, or_false] at among
  rcases among with rfl | rfl
  · exact FileTree.ne_of_resolve_append isSuffix_lock leads leadsToo rfl
  · exact FileTree.ne_of_resolve_append isSuffix_draft leads leadsToo rfl

/-- The same text is read from the document, if its path leads somewhere. -/
theorem SameDocument.readText_iff {path : String} {before after : FileTree}
    (same : SameDocument path before after) {place : Place}
    (leads : before.resolve path = .ok place) (text : String) :
    after.readText path = .ok text ↔ before.readText path = .ok text := by
  have leadsToo := same.leads place leads
  rw [FileTree.readText_eq_ok_iff leads, FileTree.readText_eq_ok_iff leadsToo,
    same.content place leadsToo]

/-- A file system that moves nothing. -/
def stuckDisk : Disk :=
  { Disk.ofTree with
    move := fun _ _ => throw .isDirectory
    moves := fun source _ tree _ after failed => by
      rw [← (Prod.mk.inj failed).2]
      exact .refl [source] tree }

theorem not_ok_of_outcome_stuckDisk {path : String} {change : Change α} {tree left : FileTree}
    {result : α} : outcome (stuckDisk.changeFile path change) tree ≠ (.ok result, left) := by
  intro done
  obtain ⟨-, _, -, locks⟩ := exists_of_outcome_bind done
  obtain ⟨-, _, -, loads⟩ := exists_of_outcome_bind locks
  obtain ⟨table, _, -, changes⟩ := exists_of_outcome_bind loads
  obtain ⟨given, last, -, saves⟩ := exists_of_outcome_bind changes
  have saves : outcome (stuckDisk.save path given.2 >>= fun _ => pure given.1) last =
    (.ok result, left) := saves
  obtain ⟨nothing, _, saved, -⟩ := exists_of_outcome_bind saves
  obtain ⟨_, _, -, moved⟩ := exists_of_outcome_bind saved
  cases moved

/-- The document of an empty library, in the directory of all files. -/
def emptyLibrary : FileTree := ⟨[(["library.json"], .file (.text (documentText .empty)))], []⟩

end BlockForge.Library
