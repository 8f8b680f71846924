/-
# The table of a library

A library is a table: items under keys, in the order of their last writing. A library that
only this program has written keeps every item under its own identifier and no two items
of one code. A document may say otherwise, so the operations do not rely on it: an item is
looked up under a key, and an item that was overwritten is kept under its identifier.

Every operation either gives the changed table or fails.
-/

import BlockForge.Library.Item

namespace BlockForge.Library

/-- Items under keys, the one written last at the end. -/
structure Table where
  entries : List (String × Item)

namespace Table

def empty : Table := ⟨[]⟩

def items (table : Table) : List Item := table.entries.map (·.2)

def find? (table : Table) (key : String) : Option Item := table.entries.lookup key

/-- The first item of a code. -/
def findCode? (table : Table) (code : String) : Option Item :=
  table.items.find? (·.code == code)

/-- The table without what is under a key. -/
def erase (table : Table) (key : String) : Table :=
  ⟨table.entries.filter (·.1 != key)⟩

/-- The table with an item under a key: in place of what is under it, or at the end. -/
def insert (table : Table) (key : String) (item : Item) : Table :=
  if (table.find? key).isSome then
    ⟨table.entries.map fun (other, held) => if other = key then (other, item) else (other, held)⟩
  else ⟨table.entries ++ [(key, item)]⟩

def take (table : Table) (key : String) : Except Failure (Item × Table) :=
  match table.find? key with
  | some item => .ok (item, table.erase key)
  | none => .error (.notFound key)

/-- Saves a description: over the item of its code, or as a new item under a fresh
identifier. -/
def upsert (table : Table) (fresh : String) (block : Description) (now : Timestamp) :
    Except Failure (Receipt × Table) :=
  match table.findCode? block.code with
  | some owner => do
    let (item, rest) ← table.take owner.id
    let item := item.replace block now
    return (item.receipt true, rest.insert item.id item)
  | none =>
    let item := Item.make fresh block now
    return (item.receipt false, table.insert item.id item)

/-- Overwrites the item under a key, unless another item has the code. -/
def update (table : Table) (key : String) (block : Description) (now : Timestamp) :
    Except Failure (Item × Table) := do
  if (table.find? key).isNone then throw (.notFound key)
  match (table.findCode? block.code).filter (·.id != key) with
  | some owner => throw (.conflict block.code owner.id)
  | none =>
    let (item, rest) ← table.take key
    let item := item.replace block now
    return (item, rest.insert item.id item)

def get (table : Table) (key : String) : Except Failure Item :=
  match table.find? key with
  | some item => .ok item
  | none => .error (.notFound key)

def getCode (table : Table) (code : String) : Except Failure Item :=
  match table.findCode? code with
  | some item => .ok item
  | none => .error (.notFound code)

def delete (table : Table) (key : String) : Except Failure Table :=
  (table.take key).map (·.2)

def description (table : Table) (key : String) : Except Failure Description := do
  (← table.get key).description

/-- Whether one summary may stand before another one: it was not written earlier. -/
def listedBefore (a b : Summary) : Bool := !a.updatedAt.isBefore b.updatedAt

/-- Summaries of all items, the one written last first. Of two items of one time, the one
that comes later in the table stands first. -/
def list (table : Table) : List Summary :=
  (table.items.reverse.map Item.summary).mergeSort listedBefore

end Table

end BlockForge.Library
