/-
# Saved descriptions

An item of the library is a description as it was saved, in its stored form, with an
identifier and two timestamps. Some members of the description stand beside it once more,
so that a list of the library can be made without reading it. The stored form is only
trusted after it has been read and checked again.

An identifier is made of sixteen random bytes, of which six bits are set to the form of
random identifiers: version 4 and the common variant. It is written in hexadecimal digits,
in groups of 8, 4, 4, 4 and 12 that are separated by hyphens.
-/

import BlockForge.Block.Loading
import BlockForge.Json.Record

namespace BlockForge.Library

open BlockForge.Json (Shape Node Value Origin)

/-- Why an operation on the library failed. -/
inductive Failure where
  | notFound (key : String)
  | conflict (code owner : String)
  | invalidSaved (id : String) (issues : List Issue)
  | inaccessible (path : String) (fault : Files.FileFault)
  | undecodable (detail : String)
  deriving DecidableEq

namespace Failure

def message : Failure → String
  | notFound key => "library item '" ++ key ++ "' not found"
  | conflict code owner => "code '" ++ code ++ "' is already used by library item '" ++ owner ++ "'"
  | invalidSaved id issues =>
    "saved config of library item '" ++ id ++ "' is invalid ("
      ++ String.ofList (natChars issues.length) ++ " issues)"
  | inaccessible path _ => "failed to access library at '" ++ path ++ "'"
  | undecodable detail => "failed to encode or decode library: " ++ detail

def messages : Failure → List String
  | inaccessible path fault => [(inaccessible path fault).message, fault.message]
  | undecodable detail => [(undecodable detail).message, detail]
  | other => [other.message]

def isNotFound : Failure → Bool
  | notFound _ => true
  | _ => false

end Failure

structure Item where
  id : String
  blockName : String
  code : String
  template : String
  displayName : String
  about : String
  tab : String
  icon : String
  hasRepeater : Bool
  stored : Value
  createdAt : Timestamp
  updatedAt : Timestamp

/-- What a list of the library shows of an item. -/
structure Summary where
  id : String
  blockName : String
  code : String
  template : String
  displayName : String
  about : String
  hasRepeater : Bool
  createdAt : Timestamp
  updatedAt : Timestamp
  deriving DecidableEq

/-- What a save tells of an item. -/
structure Receipt where
  id : String
  code : String
  updatedAt : Timestamp
  replaced : Bool
  deriving DecidableEq

namespace Item

def make (id : String) (block : Description) (now : Timestamp) : Item where
  id := id
  blockName := block.blockName
  code := block.code
  template := block.template
  displayName := block.displayName
  about := block.about
  tab := block.tab
  icon := block.icon
  hasRepeater := block.hasRepeater
  stored := block.value.canonical
  createdAt := now
  updatedAt := now

/-- The item with another description. Identifier and time of making stay. -/
def replace (item : Item) (block : Description) (now : Timestamp) : Item :=
  { make item.id block now with createdAt := item.createdAt }

/-- The description of an item, read and checked again. A description that cannot be read is
one issue of the whole. -/
def description (item : Item) : Except Failure Description :=
  match Description.ofValue item.stored with
  | .ok block => .ok block
  | .error (.invalid issues) => .error (.invalidSaved item.id issues)
  | .error other =>
    .error (.invalidSaved item.id [⟨[.key "input"], .unreadable other.message⟩])

def summary (item : Item) : Summary where
  id := item.id
  blockName := item.blockName
  code := item.code
  template := item.template
  displayName := item.displayName
  about := item.about
  hasRepeater := item.hasRepeater
  createdAt := item.createdAt
  updatedAt := item.updatedAt

def receipt (item : Item) (replaced : Bool) : Receipt :=
  ⟨item.id, item.code, item.updatedAt, replaced⟩

def shape : Shape :=
  [("id", .text), ("blockName", .text), ("code", .text), ("tplFilename", .text),
    ("nameLabel", .text), ("description", .text), ("tab", .text), ("icon", .text),
    ("hasRepeater", .flag), ("input", .any), ("createdAt", .time), ("updatedAt", .time)]

def toRow (item : Item) : shape.Row :=
  (item.id, item.blockName, item.code, item.template, item.displayName, item.about, item.tab,
    item.icon, item.hasRepeater, item.stored, item.createdAt, item.updatedAt, ())

def ofRow : shape.Row → Item
  | (id, blockName, code, template, displayName, about, tab, icon, hasRepeater, stored,
      createdAt, updatedAt, ()) =>
    ⟨id, blockName, code, template, displayName, about, tab, icon, hasRepeater, stored,
      createdAt, updatedAt⟩

def read (origin : Origin) (node : Node) : Except Json.Fault Item :=
  (shape.read "struct LibraryItem" origin node).map ofRow

def value (item : Item) : Value := shape.write item.toRow

end Item

namespace Summary

def shape : Shape :=
  [("id", .text), ("blockName", .text), ("code", .text), ("tplFilename", .text),
    ("nameLabel", .text), ("description", .text), ("hasRepeater", .flag),
    ("createdAt", .time), ("updatedAt", .time)]

def toRow (s : Summary) : shape.Row :=
  (s.id, s.blockName, s.code, s.template, s.displayName, s.about, s.hasRepeater, s.createdAt,
    s.updatedAt, ())

def ofRow : shape.Row → Summary
  | (id, blockName, code, template, displayName, about, hasRepeater, createdAt, updatedAt,
      ()) =>
    ⟨id, blockName, code, template, displayName, about, hasRepeater, createdAt, updatedAt⟩

def read (origin : Origin) (node : Node) : Except Json.Fault Summary :=
  (shape.read "struct LibraryItemSummary" origin node).map ofRow

def value (s : Summary) : Value := shape.write s.toRow

end Summary

namespace Receipt

def shape : Shape :=
  [("id", .text), ("code", .text), ("updatedAt", .time), ("replaced", .flag)]

def toRow (r : Receipt) : shape.Row := (r.id, r.code, r.updatedAt, r.replaced, ())

def ofRow : shape.Row → Receipt
  | (id, code, updatedAt, replaced, ()) => ⟨id, code, updatedAt, replaced⟩

def read (origin : Origin) (node : Node) : Except Json.Fault Receipt :=
  (shape.read "struct SavedItem" origin node).map ofRow

def value (r : Receipt) : Value := shape.write r.toRow

end Receipt

/-! ## Identifiers -/

def hexByte (byte : UInt8) : List Char :=
  [Nat.digitChar (byte.toNat / 16), Nat.digitChar (byte.toNat % 16)]

/-- Sixteen bytes with the bits of a random identifier, or fewer as they are. -/
def markRandom (bytes : List UInt8) : List UInt8 :=
  (bytes.modify 6 fun byte => (byte &&& 0x0F) ||| 0x40).modify 8
    fun byte => (byte &&& 0x3F) ||| 0x80

/-- The groups of bytes that hyphens separate. -/
def groupSizes : List Nat := [4, 2, 2, 2, 6]

def groups : List Nat → List UInt8 → List (List UInt8)
  | [], _ => []
  | size :: rest, bytes => bytes.take size :: groups rest (bytes.drop size)

/-- The identifier that is made of random bytes. -/
def identifier (bytes : List UInt8) : String :=
  "-".intercalate ((groups groupSizes (markRandom bytes)).map fun group =>
    String.ofList (group.flatMap hexByte))

end BlockForge.Library
