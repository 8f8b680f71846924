/-
# TOML tables as trees of data

Readers of typed data go through trees. A TOML table becomes a tree without places, its
keys in increasing order. What readers cannot use is made so that they refuse it: an
integer of more than 64 bits can be passed over and not read, one of more than 128 bits or a
float past the largest double stops even a reader that passes over it, and a moment in time
is an object of one member that no reader asks for.

In the other direction a value of typed data becomes a TOML value. There is no null in
TOML, so a null member is left out.

Readers ask a table for some keys and pass over whatever stands under the others. A table is
plain if every value in it could be read, whether asked for or not. Two things stand in the
way: a number past 64 bits or past the largest double, and a table whose first key in order is
the one reserved for moments while no moment stands under it. Where one does, a reader takes
it for all there is, and the other keys do not count. The document itself is a table in any
case, and the reserved key is a key like others there.
-/

import BlockForge.Json.Reading
import BlockForge.Toml.Printer

namespace BlockForge.Toml

open BlockForge.Json (Node Items Members Fault Refusal)

/-- The one member of the object that a moment in time becomes. -/
def momentKey : String := "$__toml_private_datetime"

/-- An integer as a number, if it has at most 64 bits. -/
def number? (i : Int) : Option Json.Number :=
  if fitsSigned64 i then some (.signed i)
  else if 0 ≤ i && i ≤ greatestUnsigned64 then some (.unsigned i.natAbs)
  else none

/-- Whether an integer has at most 128 bits, a sign included where it is negative. -/
def fits128 (i : Int) : Bool :=
  i.natAbs ≤ if i < 0 then Nat.pow 2 127 else Nat.pow 2 128 - 1

def integerNode (i : Int) : Node :=
  match number? i with
  | some n => .scalar (.ok (.number n)) 0
  | none =>
    if fits128 i then .scalar (.error (.refused (.wrongType (.integer i) "any value") 0)) 0
    else .brokenBy (.refused (.overflowed "integer") 0)

mutual

/-- A value as a tree. -/
def Value.node : Value → Node
  | .string text => .scalar (.ok (.string text)) 0
  | .integer i => integerNode i
  | .float x => .scalar (.ok (.number (.float x))) 0
  | .outsized _ => .brokenBy (.refused (.overflowed "floating-point") 0)
  | .bool b => .scalar (.ok (.bool b)) 0
  | .moment text =>
    .object 0 (.member (.ok momentKey) 0 (.scalar (.ok (.string text)) 0) (.closed 0))
  | .array items => .array 0 (nodeItems items)
  | .table entries => .object 0 (membersOfNodes (Json.sortMembers (nodeEntries entries)))

def nodeItems : List Value → Items
  | [] => .closed 0
  | item :: rest => .item 0 item.node (nodeItems rest)

def nodeEntries : List (String × Value) → List (String × Node)
  | [] => []
  | (key, value) :: rest => (key, value.node) :: nodeEntries rest

def membersOfNodes : List (String × Node) → Members
  | [] => .closed 0
  | (key, node) :: rest => .member (.ok key) 0 node (membersOfNodes rest)

end

mutual

/-- A value of typed data as a TOML value. -/
def ofData : Json.Value → Option Value
  | .null => none
  | .bool b => some (.bool b)
  | .number (.unsigned n) => some (.integer n)
  | .number (.signed i) => some (.integer i)
  | .number (.float x) => some (.float x)
  | .string s => some (.string s)
  | .array items => some (.array (itemsOfData items))
  | .object members => some (.table (entriesOfData members))

def itemsOfData : List Json.Value → List Value
  | [] => []
  | item :: rest => (ofData item).toList ++ itemsOfData rest

def entriesOfData : List (String × Json.Value) → Entries
  | [] => []
  | (key, value) :: rest =>
    ((ofData value).toList.map fun v => (key, v)) ++ entriesOfData rest

end

/-- A double in a message about a TOML document: never with a power of ten, and with a point
if it is a number. -/
def messageFloat (x : Binary64) : List Char :=
  let chars := plainDecimal.write x
  match x with
  | .finite _ _ => if chars.contains '.' then chars else chars ++ ['.', '0']
  | _ => chars

/-- An object of typed data as a document. -/
def documentOf (data : Json.Value) : List Char :=
  match ofData data with
  | some (.table entries) => documentChars entries
  | _ => []

/-! ## Plain tables -/

/-- What a table holds under the key reserved for moments, if that is its least key. -/
def claimedMoment? (entries : Entries) : Option Value :=
  if entries.any fun (key, _) => key < momentKey then none else entries.lookup momentKey

def Value.isMomentText : Value → Bool
  | .string text => isMoment text.toList
  | _ => false

mutual

/-- Whether a value can be read in full. -/
def Value.isPlain : Value → Bool
  | .integer i => fitsSigned64 i
  | .outsized _ => false
  | .array items => plainItems items
  | .table entries =>
    match claimedMoment? entries with
    | some value => value.isMomentText
    | none => plainEntries entries
  | _ => true

def plainItems : List Value → Bool
  | [] => true
  | item :: rest => item.isPlain && plainItems rest

def plainEntries : List (String × Value) → Bool
  | [] => true
  | (_, value) :: rest => value.isPlain && plainEntries rest

end

end BlockForge.Toml
