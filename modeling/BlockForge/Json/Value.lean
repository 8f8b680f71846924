/-
# JSON values

A value as data, without the text it was read from. The members of an object are an
ordered list in which a key may stand twice, because readers of typed data see every
member in turn. The stored form of a value is its canonical form: keys in increasing
order, the last of several members of one key standing for all of them.

A number keeps how it was read. Whole numbers without a sign, signed whole numbers and
doubles are told apart, since readers accept different ones in different places.
-/

import BlockForge.Decimal.Binary64

namespace BlockForge.Json

variable {α : Type}

/-- A number as it was read. -/
inductive Number where
  /-- A whole number written without a minus sign. -/
  | unsigned (n : Nat)
  /-- A whole number that may be negative. -/
  | signed (i : Int)
  | float (x : Binary64)
  deriving DecidableEq

/-- An integer as a number: without a sign where it is not negative. -/
def Number.ofInt (i : Int) : Number :=
  if i < 0 then .signed i else .unsigned i.natAbs

inductive Value where
  | null
  | bool (b : Bool)
  | number (n : Number)
  | string (s : String)
  | array (items : List Value)
  /-- An object; its members in order, repeated keys kept. -/
  | object (members : List (String × Value))

/-- Puts a member into a list in increasing order of keys, in place of the member that has
its key. -/
def insertMember (key : String) (value : α) : List (String × α) → List (String × α)
  | [] => [(key, value)]
  | (other, held) :: rest =>
    if key < other then (key, value) :: (other, held) :: rest
    else if key = other then (key, value) :: rest
    else (other, held) :: insertMember key value rest

/-- Members in increasing order of keys, the last one of each key. -/
def sortMembers (members : List (String × α)) : List (String × α) :=
  members.foldl (fun sorted (key, value) => insertMember key value sorted) []

mutual

/-- The stored form of a value: every object with its keys in increasing order, each once,
and null for a double that is not finite. -/
def Value.canonical : Value → Value
  | .number (.float x) => if x.isFinite then .number (.float x) else .null
  | .array items => .array (canonicalItems items)
  | .object members => .object (sortMembers (canonicalMembers members))
  | other => other

def canonicalItems : List Value → List Value
  | [] => []
  | item :: rest => item.canonical :: canonicalItems rest

def canonicalMembers : List (String × Value) → List (String × Value)
  | [] => []
  | (key, value) :: rest => (key, value.canonical) :: canonicalMembers rest

end

/-- The last member of a key. -/
def lastMember? (members : List (String × Value)) (key : String) : Option Value :=
  (members.reverse.find? (·.1 == key)).map (·.2)

/-- The value of a key in an object. -/
def Value.get? : Value → String → Option Value
  | .object members, key => lastMember? members key
  | _, _ => none

/-- The items of an array, or none of any other value. -/
def Value.items : Value → List Value
  | .array items => items
  | _ => []

def Value.ofFloat (x : Binary64) : Value := .number (.float x)

def Value.ofInt (i : Int) : Value := .number (.ofInt i)

end BlockForge.Json
