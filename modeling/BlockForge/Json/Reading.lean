/-
# Reading typed data from a tree

Readers of typed data take a node and give a result or the first fault met on the way. The
same readers serve every origin of a tree: a JSON text, a stored value and a document in
another format. Origins differ in two points only, which are collected in one record: how
deeply values may be nested, and what becomes of items past the last one of a record
written as an array.

A tree made from a value has all its places at zero and no breaks, so reading it meets the
same refusals without a meaningful place.
-/

import BlockForge.Json.Node

namespace BlockForge.Json

/-- What becomes of items past the last one that a record has a place for. -/
inductive Surplus where
  /-- They are taken for text that follows the record. -/
  | trailing
  /-- They make the array too long. -/
  | counted
  /-- They make the array longer than it has places. -/
  | limited
  | ignored
  deriving DecidableEq

/-- Where a tree comes from. -/
structure Origin where
  /-- How many more arrays and objects may be entered, if that is bounded. -/
  levels : Option Nat
  surplus : Surplus

namespace Origin

/-- A JSON text: its values are nested less than 128 levels deep. -/
def text : Origin := ⟨some 128, .trailing⟩

/-- A value that has been read before. -/
def stored : Origin := ⟨none, .counted⟩

/-- A value that was held back while its text was read. -/
def buffered : Origin := ⟨none, .limited⟩

/-- A table of a configuration document. -/
def table : Origin := ⟨none, .ignored⟩

/-- Enters the array or object whose bracket is at a place. -/
def enter (origin : Origin) (start : Nat) : Except Fault Origin :=
  match origin.levels with
  | none => .ok origin
  | some levels =>
    if levels ≤ 1 then .error (.malformed .tooDeep (start + 1))
    else .ok { origin with levels := some (levels - 1) }

end Origin

mutual

/-- A value as a tree without places. -/
def Node.ofValue : Value → Node
  | .null => .scalar (.ok .null) 0
  | .bool b => .scalar (.ok (.bool b)) 0
  | .number n => .scalar (.ok (.number n)) 0
  | .string s => .scalar (.ok (.string s)) 0
  | .array items => .array 0 (itemsOfValues items)
  | .object members => .object 0 (membersOfValues members)

def itemsOfValues : List Value → Items
  | [] => .closed 0
  | value :: rest => .item 0 (Node.ofValue value) (itemsOfValues rest)

def membersOfValues : List (String × Value) → Members
  | [] => .closed 0
  | (key, value) :: rest =>
    .member (.ok key) 0 (Node.ofValue value) (membersOfValues rest)

end

namespace Node

/-- The fault of a value that is not of the kind asked for. A scalar is read before that
is noticed; an array or object is not entered. -/
def wrongType (expected : String) : Node → Fault
  | .scalar (.ok s) stop => .refused (.wrongType s.value.found expected) stop
  | .scalar (.error fault) _ => fault
  | .array start _ => .refused (.wrongType .sequence expected) start
  | .object start _ => .refused (.wrongType .map expected) start
  | .broken read _ => read

def string : Node → Except Fault String
  | .scalar (.ok (.string s)) _ => .ok s
  | other => .error (other.wrongType "a string")

def bool : Node → Except Fault Bool
  | .scalar (.ok (.bool b)) _ => .ok b
  | other => .error (other.wrongType "a boolean")

def optional (read : Node → Except Fault α) : Node → Except Fault (Option α)
  | .scalar (.ok .null) _ => .ok none
  | other => (read other).map some

end Node

mutual

def Node.value (origin : Origin) : Node → Except Fault Value
  | .scalar s _ => s.map (·.value)
  | .array start items => do
    let inner ← origin.enter start
    return .array (← items.values inner)
  | .object start members => do
    let inner ← origin.enter start
    return .object (← members.values inner)
  | .broken read _ => .error read

def Items.values (origin : Origin) : Items → Except Fault (List Value)
  | .closed _ => .ok []
  | .broken read _ => .error read
  | .item _ node rest => do
    let value ← node.value origin
    return value :: (← rest.values origin)

def Members.values (origin : Origin) : Members → Except Fault (List (String × Value))
  | .closed _ => .ok []
  | .broken read _ => .error read
  | .member key _ node rest => do
    let key ← key
    let value ← node.value origin
    return (key, value) :: (← rest.values origin)

end

mutual

/-- Passes over a value, however deeply nested. -/
def Node.skip : Node → Except Fault Unit
  | .scalar _ _ => .ok ()
  | .array _ items => items.skip
  | .object _ members => members.skip
  | .broken _ skip => .error skip

def Items.skip : Items → Except Fault Unit
  | .closed _ => .ok ()
  | .broken _ skip => .error skip
  | .item _ node rest => do
    node.skip
    rest.skip

def Members.skip : Members → Except Fault Unit
  | .closed _ => .ok ()
  | .broken _ skip => .error skip
  | .member _ _ node rest => do
    node.skip
    rest.skip

end

namespace Items

/-- Reads every item. -/
def mapRead (read : Node → Except Fault α) : Items → Except Fault (List α)
  | .closed _ => .ok []
  | .broken fault _ => .error fault
  | .item _ node rest => do
    let first ← read node
    return first :: (← mapRead read rest)

def length : Items → Nat
  | .closed _ => 0
  | .broken _ _ => 0
  | .item _ _ rest => rest.length + 1

/-- Reads the next item of a record, which has to be there: `index` items come before it. -/
def required (index : Nat) (expected : String) (read : Node → Except Fault α) :
    Items → Except Fault (α × Items)
  | .closed stop => .error (.refused (.wrongLength index expected) stop)
  | .broken fault _ => .error fault
  | .item _ node rest => (read node).map (·, rest)

/-- Reads the next item of a record, or takes a default where the array has ended. -/
def orDefault (default : α) (read : Node → Except Fault α) :
    Items → Except Fault (α × Items)
  | .closed stop => .ok (default, .closed stop)
  | .broken fault _ => .error fault
  | .item _ node rest => (read node).map (·, rest)

/-- The number of places of a record, as messages give it. -/
def placesText (places : Nat) : String :=
  String.ofList (natChars places) ++ (if places = 1 then " element" else " elements")
    ++ " in sequence"

/-- Ends a record of which `rest` is left of `all` its items. -/
def finish (origin : Origin) (all rest : Items) : Except Fault Unit :=
  match rest, origin.surplus with
  | .closed _, _ => .ok ()
  | _, .ignored => .ok ()
  | .item _ _ _, .counted =>
    .error (.refused (.wrongLength all.length "fewer elements in array") 0)
  | .item _ _ _, .limited =>
    .error (.refused (.wrongLength all.length (placesText (all.length - rest.length))) 0)
  | .item seen _ _, .trailing => .error (.malformed .trailingCharacters seen)
  | .broken fault _, _ =>
    if fault.cause = .malformed .expectedListCommaOrEnd ∨
        fault.cause = .malformed .endInValue then
      .error (.malformed .trailingCharacters fault.offset)
    else .error fault

end Items

/-- Goes through members from the front. What is known so far is passed on from member to
member; the place after the closing brace comes back with the last of it. -/
def Members.fold (step : β → String → Nat → Node → Except Fault β) :
    β → Members → Except Fault (β × Nat)
  | known, .closed stop => .ok (known, stop)
  | _, .broken fault _ => .error fault
  | known, .member key standing node rest => do
    let key ← key
    let known ← step known key standing node
    Members.fold step known rest

/-- Fills the slot of a key that is met for the first time. A key met again is refused
where the reader stands after it. -/
def fill (slot : Option α) (key : String) (standing : Nat) (read : Except Fault α) :
    Except Fault (Option α) :=
  match slot with
  | some _ => .error (.refused (.repeatedKey key) standing)
  | none => read.map some

/-- The contents of the slot of a key that has to be there. -/
def need (slot : Option α) (key : String) (stop : Nat) : Except Fault α :=
  match slot with
  | some value => .ok value
  | none => .error (.refused (.missingKey key) stop)

namespace Node

def list (origin : Origin) (read : Origin → Node → Except Fault α) :
    Node → Except Fault (List α)
  | .array start items => do
    let inner ← origin.enter start
    items.mapRead (read inner)
  | other => .error (other.wrongType "a sequence")

/-- Reads a record, which may be written as an object or as an array of its values. -/
def record (origin : Origin) (expected : String)
    (ofItems : Origin → Items → Except Fault α)
    (ofMembers : Origin → Members → Except Fault α) : Node → Except Fault α
  | .array start items => do
    let inner ← origin.enter start
    ofItems inner items
  | .object start members => do
    let inner ← origin.enter start
    ofMembers inner members
  | other => .error (other.wrongType expected)

/-- Reads a record that is written as an object only. -/
def mapOnly (origin : Origin) (expected : String)
    (ofMembers : Origin → Members → Except Fault α) : Node → Except Fault α
  | .object start members => do
    let inner ← origin.enter start
    ofMembers inner members
  | other => .error (other.wrongType expected)

end Node

/-- Reads the whole of a text with a reader of its value. -/
def readText (text : List Char) (read : Node → Except Fault α) : Except Fault α := do
  let document := Document.ofText text
  let result ← read document.root
  match document.tail with
  | some fault => .error fault
  | none => return result

def Value.ofText (text : List Char) : Except Fault Value :=
  readText text (Node.value .text)

end BlockForge.Json
