/-
# The tree of a text

A text is read into a tree that keeps places and that may break off. Where the text stops
being JSON the tree ends in a break, and everything before the break is there in order, so
a reader that goes through the tree from the front meets the first fault of the text, be
it a malformation or a value of the wrong shape.

A break holds two faults. A reader that takes in the value and one that merely passes over
it notice a malformation at different bytes, and sometimes name it differently. Likewise a
scalar may be well formed and yet not be readable, such as a number past the largest
double; it is kept as the fault that a reader meets, and passing over it is no fault.
-/

import BlockForge.Json.Fault
import BlockForge.Json.Lexeme

namespace BlockForge.Json

/-- A value without parts. -/
inductive Scalar where
  | null
  | bool (b : Bool)
  | number (n : Number)
  | string (s : String)

def Scalar.value : Scalar → Value
  | .null => .null
  | .bool b => .bool b
  | .number n => .number n
  | .string s => .string s

mutual

/-- A value of a text. -/
inductive Node where
  /-- A scalar, or the fault that reading it meets, and the place after it. -/
  | scalar (value : Except Fault Scalar) (stop : Nat)
  /-- An array, from the place before its bracket. -/
  | array (start : Nat) (items : Items)
  | object (start : Nat) (members : Members)
  /-- No value: what reading it and what passing over it meets. -/
  | broken (read skip : Fault)

/-- The items of an array up to its end or to a break. -/
inductive Items where
  | closed (stop : Nat)
  /-- A break between items: what reading on and what passing on meets. -/
  | broken (read skip : Fault)
  /-- An item, with the place after its first byte. -/
  | item (seen : Nat) (value : Node) (rest : Items)

/-- The members of an object up to its end or to a break. -/
inductive Members where
  | closed (stop : Nat)
  /-- A break between members: what reading on and what passing on meets. -/
  | broken (read skip : Fault)
  /-- A member. A reader that gives up after its key comes to stand at `standing`: past
  the blanks, and past a closing brace if that is what follows. -/
  | member (key : Except Fault String) (standing : Nat) (value : Node) (rest : Members)

end

/-- A break whose two faults are the same. -/
def Node.brokenBy (fault : Fault) : Node := .broken fault fault

/-- A scalar as a node, from reading it and from passing over it. What follows it is
returned unless even passing over it fails. -/
def scalarNode (read : Except Fault (Scalar × Cursor)) (skip : Except Fault Cursor) :
    Node × Option Cursor :=
  match skip with
  | .ok after => (.scalar (read.map (·.1)) after.offset, some after)
  | .error skipFault =>
    match read with
    | .error readFault => (.broken readFault skipFault, none)
    | .ok _ => (.brokenBy skipFault, none)

def wordNode (letters : List Char) (value : Scalar) (c : Cursor) : Node × Option Cursor :=
  let word := readWord letters c
  scalarNode (word.map (value, ·)) word

/-- Where a reader comes to stand that gives up here. -/
def standingAt (c : Cursor) : Nat :=
  let c := c.skipSpace
  if c.rest.head? = some '\x7d' then c.offset + 1 else c.offset

mutual

/-- The value that comes next and what follows it. The fuel bounds the number of nested
steps, of which no character needs more than three. -/
def nodeAt : Nat → Cursor → Node × Option Cursor
  | 0, c => (.brokenBy (c.faultSeen .tooDeep), none)
  | fuel + 1, c =>
    let c := c.skipSpace
    match c.rest with
    | [] => (.brokenBy (c.faultSeen .endInValue), none)
    | first :: rest =>
      let after : Cursor := ⟨rest, c.offset + 1⟩
      match first with
      | 'n' => wordNode ['u', 'l', 'l'] .null after
      | 't' => wordNode ['r', 'u', 'e'] (.bool true) after
      | 'f' => wordNode ['a', 'l', 's', 'e'] (.bool false) after
      | '"' =>
        scalarNode ((readString after).map fun (s, after) => (.string s, after))
          (skipString after)
      | '[' =>
        let (items, after) := itemsAt fuel true after
        (.array c.offset items, after)
      | '\x7b' =>
        let (members, after) := membersAt fuel true after
        (.object c.offset members, after)
      | first =>
        if first = '-' || first.isDigit then
          scalarNode ((readNumber c).map fun (n, after) => (.number n, after)) (skipNumber c)
        else (.brokenBy (c.faultSeen .expectedValue), none)

/-- The items that come next, the first one or after an item, and what follows the array. -/
def itemsAt : Nat → Bool → Cursor → Items × Option Cursor
  | 0, _, c => (.broken (c.faultSeen .tooDeep) (c.faultSeen .tooDeep), none)
  | fuel + 1, isFirst, c =>
    let c := c.skipSpace
    match c.rest with
    | [] => (.broken (c.faultSeen .endInList) (c.faultSeen .endInList), none)
    | ']' :: rest => (.closed (c.offset + 1), some ⟨rest, c.offset + 1⟩)
    | first :: rest =>
      if isFirst then itemAt fuel c
      else if first = ',' then
        let c : Cursor := Cursor.skipSpace ⟨rest, c.offset + 1⟩
        match c.rest with
        | [] => (.broken (c.faultSeen .endInValue) (c.faultSeen .endInValue), none)
        | ']' :: _ => (.broken (c.faultSeen .trailingComma) (c.faultSeen .expectedValue), none)
        | _ => itemAt fuel c
      else
        (.broken (c.faultSeen .expectedListCommaOrEnd) (c.faultSeen .expectedListCommaOrEnd),
          none)

def itemAt : Nat → Cursor → Items × Option Cursor
  | 0, c => (.broken (c.faultSeen .tooDeep) (c.faultSeen .tooDeep), none)
  | fuel + 1, c =>
    match nodeAt fuel c with
    | (value, some after) =>
      let (rest, final) := itemsAt fuel false after
      (.item c.seen value rest, final)
    | (value, none) => (.item c.seen value (.closed c.offset), none)

/-- The members that come next, the first one or after a member, and what follows the
object. -/
def membersAt : Nat → Bool → Cursor → Members × Option Cursor
  | 0, _, c => (.broken (c.faultSeen .tooDeep) (c.faultSeen .tooDeep), none)
  | fuel + 1, isFirst, c =>
    let c := c.skipSpace
    match c.rest with
    | [] => (.broken (c.faultSeen .endInObject) (c.faultSeen .endInObject), none)
    | '\x7d' :: rest => (.closed (c.offset + 1), some ⟨rest, c.offset + 1⟩)
    | first :: rest =>
      if isFirst then
        if first = '"' then memberAt fuel ⟨rest, c.offset + 1⟩
        else (.broken (c.faultSeen .keyNotString) (c.faultSeen .keyNotString), none)
      else if first = ',' then
        let c : Cursor := Cursor.skipSpace ⟨rest, c.offset + 1⟩
        match c.rest with
        | [] => (.broken (c.faultSeen .endInValue) (c.faultSeen .endInObject), none)
        | '"' :: rest => memberAt fuel ⟨rest, c.offset + 1⟩
        | '\x7d' :: _ =>
          (.broken (c.faultSeen .trailingComma) (c.faultSeen .keyNotString), none)
        | _ => (.broken (c.faultSeen .keyNotString) (c.faultSeen .keyNotString), none)
      else
        (.broken (c.faultSeen .expectedObjectCommaOrEnd)
          (c.faultSeen .expectedObjectCommaOrEnd), none)

/-- One member, from after the opening quote of its key on, and the members after it. -/
def memberAt : Nat → Cursor → Members × Option Cursor
  | 0, c => (.broken (c.faultSeen .tooDeep) (c.faultSeen .tooDeep), none)
  | fuel + 1, c =>
    let read := readString c
    match skipString c with
    | .error skipFault =>
      match read with
      | .error readFault => (.broken readFault skipFault, none)
      | .ok _ => (.broken skipFault skipFault, none)
    | .ok afterKey =>
      let key := read.map (·.1)
      let standing := standingAt afterKey
      let colon := afterKey.skipSpace
      match colon.rest with
      | ':' :: rest =>
        match nodeAt fuel ⟨rest, colon.offset + 1⟩ with
        | (value, some after) =>
          let (rest, final) := membersAt fuel false after
          (.member key standing value rest, final)
        | (value, none) => (.member key standing value (.closed standing), none)
      | [] =>
        (.member key standing (.brokenBy (colon.faultSeen .endInObject)) (.closed standing),
          none)
      | _ =>
        (.member key standing (.brokenBy (colon.faultSeen .expectedColon)) (.closed standing),
          none)

end

/-- A text as a tree, and the fault of what follows its value. -/
structure Document where
  root : Node
  /-- The fault of anything but blanks after that value. -/
  tail : Option Fault

def Document.ofText (text : List Char) : Document :=
  match nodeAt (3 * text.length + 3) (.start text) with
  | (root, none) => ⟨root, none⟩
  | (root, some after) =>
    let after := after.skipSpace
    ⟨root, if after.rest.isEmpty then none else some (after.faultSeen .trailingCharacters)⟩

end BlockForge.Json
