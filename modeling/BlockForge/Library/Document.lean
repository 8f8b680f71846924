/-
# The document of a library

A library is kept as one JSON document: its version and its items under their keys. Members
that are not known are passed over, but have to be well formed. All but the version is held
back until the document ends, so whatever is wrong with an item is noticed there.
-/

import BlockForge.Json.Fault
import BlockForge.Library.Table

namespace BlockForge.Library

open BlockForge.Json

/-- The version that is written. -/
def documentVersion : Nat := 1

/-- The largest version that can be told: a whole number of 32 bits. -/
def greatestVersion : Nat := 4294967295

def readVersion : Node → Except Fault Nat
  | .scalar (.ok (.number (.unsigned n))) stop =>
    if n ≤ greatestVersion then .ok n else .error (.refused (.wrongValue (.integer n) "u32") stop)
  | .scalar (.ok (.number (.signed i))) stop =>
    .error (.refused (.wrongValue (.integer i) "u32") stop)
  | other => .error (other.wrongType "u32")

/-- What is known of a document while its members are gone through. -/
structure DocumentDraft where
  version : Option Nat := none
  /-- The members held back, the last one first. -/
  held : List (String × Value) := []

def DocumentDraft.take (origin : Origin) (draft : DocumentDraft) (key : String)
    (standing : Nat) (node : Node) : Except Fault DocumentDraft :=
  match key with
  | "version" =>
    return { draft with version := ← fill draft.version key standing (readVersion node) }
  | _ => return { draft with held := (key, ← node.value origin) :: draft.held }

/-- Adds items to a table, in order. Of two items under one key the later one counts, in the
place of the earlier one. -/
def readItems : Table → List (String × Value) → Except Fault Table
  | table, [] => .ok table
  | table, (key, value) :: rest => do
    let item ← Item.read .buffered (.ofValue value)
    readItems (table.insert key item) rest

/-- Reads the table of a document from the members held back. -/
def readTable (held : List (String × Value)) : Except Fault Table :=
  match held.filter (·.1 == "items") with
  | [] => .error (.refused (.missingKey "items") 0)
  | (_, first) :: others =>
    match first with
    | .object members => do
      let table ← readItems .empty members
      if others.isEmpty then return table
      else throw (.refused (.repeatedKey "items") 0)
    | other => .error ((Node.ofValue other).wrongType "a map")

/-- The table of a draft whose document ends at a place. -/
def DocumentDraft.table (draft : DocumentDraft) (stop : Nat) : Except Fault Table := do
  let _ ← need draft.version "version" stop
  (readTable draft.held.reverse).mapError fun fault => ⟨fault.cause, stop⟩

def readDocument (origin : Origin) : Node → Except Fault Table :=
  Node.mapOnly origin "struct Document" fun origin members => do
    let (draft, stop) ← members.fold (DocumentDraft.take origin) {}
    draft.table stop

def tableOfText (text : String) : Except Failure Table :=
  match readText text.toList (readDocument .text) with
  | .ok table => .ok table
  | .error fault => .error (.undecodable (fault.textIn text.toList))

def documentValue (table : Table) : Value :=
  .object [
    ("version", .number (.unsigned documentVersion)),
    ("items", .object (table.entries.map fun (key, item) => (key, item.value)))]

def documentText (table : Table) : String := (documentValue table).prettyText

end BlockForge.Library
