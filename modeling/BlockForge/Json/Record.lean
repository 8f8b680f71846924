/-
# Records

A record is a row of named columns, each of one type. It is written as an object with its
columns in order, and read from an object in any order or from an array in that order. The
names and types of the columns, the shape of the record, determine both directions, so
that a record has one declaration and not four functions.
-/

import BlockForge.Json.Reading
import BlockForge.Time.Reading

namespace BlockForge.Json

/-- The type of a column. -/
inductive Column where
  | text
  | flag
  | time
  /-- Any value, in its stored form. -/
  | any
  deriving DecidableEq

def Column.Cell : Column → Type
  | .text => String
  | .flag => Bool
  | .time => Timestamp
  | .any => Value

def Node.timestamp : Node → Except Fault Timestamp
  | .scalar (.ok (.string s)) stop =>
    (Timestamp.ofText s.toList).mapError fun fault =>
      .refused (.notTime fault.message) stop
  | other => .error (other.wrongType "an RFC 3339 formatted date and time string")

def Column.read (origin : Origin) : (column : Column) → Node → Except Fault column.Cell
  | .text => Node.string
  | .flag => Node.bool
  | .time => Node.timestamp
  | .any => fun node => (node.value origin).map Value.canonical

def Column.write : (column : Column) → column.Cell → Value
  | .text, s => .string s
  | .flag, b => .bool b
  | .time, t => .string (Timestamp.storedText t)
  | .any, v => v

/-- The names and types of the columns of a record, in order. -/
abbrev Shape := List (String × Column)

namespace Shape

/-- A record of a shape. -/
def Row : Shape → Type
  | [] => Unit
  | (_, column) :: rest => column.Cell × Row rest

/-- What is known of a record while its members are gone through. -/
def Draft : Shape → Type
  | [] => Unit
  | (_, column) :: rest => Option column.Cell × Draft rest

def emptyDraft : (shape : Shape) → shape.Draft
  | [] => ()
  | _ :: rest => (none, emptyDraft rest)

/-- Takes in one member. A member that is no column is passed over. -/
def take (origin : Origin) (key : String) (standing : Nat) (node : Node) :
    (shape : Shape) → shape.Draft → Except Fault shape.Draft
  | [], draft => do
    node.skip
    return draft
  | (name, column) :: rest, (slot, draft) =>
    if key = name then
      (fill slot key standing (column.read origin node)).map (·, draft)
    else (take origin key standing node rest draft).map (slot, ·)

/-- The record that a draft describes whose object ends at a place. -/
def close (stop : Nat) : (shape : Shape) → shape.Draft → Except Fault shape.Row
  | [], _ => .ok ()
  | (name, _) :: rest, (slot, draft) => do
    let cell ← need slot name stop
    let row ← close stop rest draft
    return (cell, row)

def ofMembers (shape : Shape) (origin : Origin) (members : Members) :
    Except Fault shape.Row := do
  let (draft, stop) ←
    members.fold (fun draft key standing node => shape.take origin key standing node draft)
      shape.emptyDraft
  shape.close stop draft

/-- Reads the columns of a record that is written as an array, and the items after them.
`index` items come before the first one. -/
def takeItems (origin : Origin) (expected : String) :
    (shape : Shape) → Nat → Items → Except Fault (shape.Row × Items)
  | [], _, items => .ok ((), items)
  | (_, column) :: rest, index, items => do
    let (cell, items) ← items.required index expected (column.read origin)
    let (row, items) ← takeItems origin expected rest (index + 1) items
    return ((cell, row), items)

def ofItems (shape : Shape) (name : String) (origin : Origin) (items : Items) :
    Except Fault shape.Row := do
  let expected := name ++ " with " ++ String.ofList (natChars shape.length) ++ " elements"
  let (row, rest) ← shape.takeItems origin expected 0 items
  items.finish origin rest
  return row

def read (shape : Shape) (name : String) (origin : Origin) : Node → Except Fault shape.Row :=
  Node.record origin name (shape.ofItems name) shape.ofMembers

def members : (shape : Shape) → shape.Row → List (String × Value)
  | [], _ => []
  | (name, column) :: rest, (cell, row) => (name, column.write cell) :: members rest row

def write (shape : Shape) (row : shape.Row) : Value := .object (shape.members row)

end Shape

end BlockForge.Json
