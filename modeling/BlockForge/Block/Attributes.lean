/-
# Reading the attributes of a field

The members of a field that are not common to all fields are held back until its object
ends, because the member that names the kind may come last. They are values by then,
without places, and are read here: first the kind, then the attributes that this kind has,
in the order in which they stand. Attributes that the kind does not have are passed over,
repeated or not.
-/

import BlockForge.Block.Description
import BlockForge.Json.Fault

namespace BlockForge.Block

open BlockForge.Json

variable {α β : Type}

/-- The members of an object, in order. -/
abbrev Attributes := List (String × Value)

def wrongType (value : Value) (expected : String) : Refusal :=
  .wrongType value.found expected

def readString : Value → Except Refusal String
  | .string s => .ok s
  | other => .error (wrongType other "a string")

def readBool : Value → Except Refusal Bool
  | .bool b => .ok b
  | other => .error (wrongType other "a boolean")

def readFloat : Value → Except Refusal Binary64
  | .number (.unsigned n) => .ok (.ofInt n)
  | .number (.signed i) => .ok (.ofInt i)
  | .number (.float x) => .ok x
  | other => .error (wrongType other "f64")

def readList (read : Value → Except Refusal α) : Value → Except Refusal (List α)
  | .array items => items.mapM read
  | other => .error (wrongType other "a sequence")

def readOptional (read : Value → Except Refusal α) : Value → Except Refusal (Option α)
  | .null => .ok none
  | other => (read other).map some

/-- The integer that a double denotes if it is whole and less than `2^63` in magnitude. -/
def wholeInt64? (x : Binary64) : Option Int :=
  match x.toInt? with
  | some i => if fitsSigned64 i.natAbs then some i else none
  | none => none

/-- Reads an integer of 64 bits, written as such or as a whole double. -/
def readInteger : Value → Except Refusal Int
  | .number (.unsigned n) =>
    if fitsSigned64 n then .ok n else .error (.notInteger (.ofInt n))
  | .number (.signed i) => if fitsSigned64 i then .ok i else .error (.notInteger (.ofInt i))
  | .number (.float x) =>
    match wholeInt64? x with
    | some i => .ok i
    | none => .error (.notInteger x)
  | _ => .error (.noAlternative "Number")

/-- Fills the slot of an attribute that is met for the first time. -/
def fillSlot (slot : Option α) (key : String) (read : Except Refusal α) :
    Except Refusal (Option α) :=
  match slot with
  | some _ => .error (.repeatedKey key)
  | none => read.map some

def foldAttributes (step : β → String → Value → Except Refusal β) :
    β → Attributes → Except Refusal β
  | known, [] => .ok known
  | known, (key, value) :: rest => do
    let known ← step known key value
    foldAttributes step known rest

/-- The identifier and the label of an option that is written as an object. -/
def readLabeled (members : Attributes) : Except Refusal Choice := do
  let (id, label) ← foldAttributes
    (fun (id, label) key value =>
      match key with
      | "id" => return (← fillSlot id "id" (readString value), label)
      | "label" => return (id, ← fillSlot label "label" (readString value))
      | _ => return (id, label))
    (none, none) members
  match id, label with
  | some id, some label => .ok (.labeled id label)
  | none, _ => .error (.missingKey "id")
  | _, none => .error (.missingKey "label")

/-- Reads an option. Whatever is wrong with one, it is no option in either form. -/
def readChoice : Value → Except Refusal Choice
  | .string text => .ok (.plain text)
  | .object members =>
    match readLabeled members with
    | .ok choice => .ok choice
    | .error _ => .error (.noAlternative "Choice")
  | _ => .error (.noAlternative "Choice")

/-- Reads the name of an editor and refuses others. -/
def readProviderName (name : String) : Except Refusal EditorProvider :=
  if name = "vuequill" then .ok .vuequill else .error (.unknownVariant name ["vuequill"])

/-- Reads an editor: its name, or an object whose only key is its name and whose value is
empty. -/
def readProvider : Value → Except Refusal EditorProvider
  | .string name => readProviderName name
  | .object [(name, value)] => do
    let provider ← readProviderName name
    match value with
    | .null => return provider
    | .object [] => return provider
    | other => .error (wrongType other "unit")
  | .object _ => .error (.wrongValue .map "map with a single key")
  | other => .error (wrongType other "string or map")

/-- What is known of a title while its members are gone through. -/
structure TitleDraft where
  tag : Option String := none
  classes : Option (List String) := none
  value : Option String := none
  focus : Option Bool := none
  bold : Option Bool := none
  italic : Option Bool := none
  underline : Option Bool := none
  size : Option Int := none

def TitleDraft.take (draft : TitleDraft) (key : String) (value : Value) :
    Except Refusal TitleDraft :=
  match key with
  | "tag" => return { draft with tag := ← fillSlot draft.tag key (readString value) }
  | "classes" =>
    return { draft with classes := ← fillSlot draft.classes key (readList readString value) }
  | "value" => return { draft with value := ← fillSlot draft.value key (readString value) }
  | "focus" => return { draft with focus := ← fillSlot draft.focus key (readBool value) }
  | "bold" => return { draft with bold := ← fillSlot draft.bold key (readBool value) }
  | "italic" => return { draft with italic := ← fillSlot draft.italic key (readBool value) }
  | "underline" =>
    return { draft with underline := ← fillSlot draft.underline key (readBool value) }
  | "size" => return { draft with size := ← fillSlot draft.size key (readInteger value) }
  | _ => return draft

/-- The title that a draft describes, its gaps filled with the defaults. -/
def TitleDraft.title (draft : TitleDraft) : TitleDefault :=
  let default : TitleDefault := {}
  { tag := draft.tag.getD default.tag
    classes := draft.classes.getD default.classes
    value := draft.value.getD default.value
    focus := draft.focus.getD default.focus
    bold := draft.bold.getD default.bold
    italic := draft.italic.getD default.italic
    underline := draft.underline.getD default.underline
    size := draft.size.getD default.size }

/-- Reads the next of the items of a record, or leaves its slot empty at the end. -/
def nextSlot (read : Value → Except Refusal α) :
    List Value → Except Refusal (Option α × List Value)
  | [] => .ok (none, [])
  | value :: rest => (read value).map (some ·, rest)

/-- Reads a title that is written as an array: its members in order, any number of the last
ones left out. -/
def readTitleItems (items : List Value) : Except Refusal TitleDefault := do
  let (tag, rest) ← nextSlot readString items
  let (classes, rest) ← nextSlot (readList readString) rest
  let (value, rest) ← nextSlot readString rest
  let (focus, rest) ← nextSlot readBool rest
  let (bold, rest) ← nextSlot readBool rest
  let (italic, rest) ← nextSlot readBool rest
  let (underline, rest) ← nextSlot readBool rest
  let (size, rest) ← nextSlot readInteger rest
  let draft : TitleDraft := ⟨tag, classes, value, focus, bold, italic, underline, size⟩
  if rest.isEmpty then return draft.title
  else .error (.wrongLength items.length "8 elements in sequence")

def readTitle : Value → Except Refusal TitleDefault
  | .object members => (foldAttributes TitleDraft.take {} members).map (·.title)
  | .array items => readTitleItems items
  | other => .error (wrongType other "struct TitleDefault")

/-- Reads the one attribute of kinds that carry a default only. -/
def readDefault (read : Value → Except Refusal α) (attributes : Attributes) :
    Except Refusal (Option α) := do
  let slot ← foldAttributes
    (fun slot key value =>
      if key = "defaultValue" then fillSlot slot key (readOptional read value)
      else return slot)
    none attributes
  return slot.join

/-- Reads two attributes that may be left out or be null. -/
def readPair (firstKey : String) (first : Value → Except Refusal α) (secondKey : String)
    (second : Value → Except Refusal β) (attributes : Attributes) :
    Except Refusal (Option α × Option β) := do
  let (one, two) ← foldAttributes
    (fun (one, two) key value =>
      if key = firstKey then return (← fillSlot one key (readOptional first value), two)
      else if key = secondKey then
        return (one, ← fillSlot two key (readOptional second value))
      else return (one, two))
    (none, none) attributes
  return (one.join, two.join)

/-- Reads the collection and the pattern of a selector, which have to be there. -/
def readSelector (attributes : Attributes) : Except Refusal FieldKind := do
  let (collection, pattern) ← foldAttributes
    (fun (collection, pattern) key value =>
      match key with
      | "collection" => return (← fillSlot collection key (readString value), pattern)
      | "selector" => return (collection, ← fillSlot pattern key (readString value))
      | _ => return (collection, pattern))
    (none, none) attributes
  match collection, pattern with
  | some collection, some pattern => return .selector collection pattern
  | none, _ => .error (.missingKey "collection")
  | _, none => .error (.missingKey "selector")

/-- What is known of a slider while its attributes are gone through. -/
structure SliderDraft where
  default : Option (Option Binary64) := none
  step : Option (Option Binary64) := none
  least : Option (Option Binary64) := none
  greatest : Option (Option Binary64) := none

def SliderDraft.take (draft : SliderDraft) (key : String) (value : Value) :
    Except Refusal SliderDraft :=
  let number := readOptional readFloat value
  match key with
  | "defaultValue" => return { draft with default := ← fillSlot draft.default key number }
  | "step" => return { draft with step := ← fillSlot draft.step key number }
  | "min" => return { draft with least := ← fillSlot draft.least key number }
  | "max" => return { draft with greatest := ← fillSlot draft.greatest key number }
  | _ => return draft

def readSlider (attributes : Attributes) : Except Refusal FieldKind := do
  let draft ← foldAttributes SliderDraft.take {} attributes
  return .slider ⟨draft.default.join, draft.step.join, draft.least.join, draft.greatest.join⟩

/-- The name of a kind, given by name or by a number without a sign. -/
def readKindName : Value → Except Refusal String
  | .string name =>
    if FieldKind.names.contains name then .ok name
    else .error (.unknownVariant name FieldKind.names)
  | .number (.unsigned n) =>
    match FieldKind.names[n]? with
    | some name => .ok name
    | none => .error (.wrongValue (.integer n) "variant index 0 <= i < 13")
  | other => .error (wrongType other "variant identifier")

def readKind (name : String) (attributes : Attributes) : Except Refusal FieldKind :=
  match name with
  | "text" => return .text (← readDefault readString attributes)
  | "color" => return .color (← readDefault readString attributes)
  | "textarea" => return .textarea (← readDefault readString attributes)
  | "fileupload" => do
    let (path, urls) ←
      readPair "path" readString "defaultUrls" (readList readString) attributes
    return .fileUpload path urls
  | "selector" => readSelector attributes
  | "editor" => do
    let (provider, default) ←
      readPair "provider" readProvider "defaultValue" readString attributes
    return .editor provider default
  | "checkbox" => return .checkbox (← readDefault readBool attributes)
  | "select" => do
    let (default, choices) ←
      readPair "defaultValue" readString "choices" (readList readChoice) attributes
    return .select default choices
  | "radio_group" => do
    let (default, choices) ←
      readPair "defaultValue" readString "choices" (readList readChoice) attributes
    return .radioGroup default choices
  | "multiselect" => do
    let (default, choices) ←
      readPair "defaultValue" (readList readString) "choices" (readList readChoice) attributes
    return .multiselect default choices
  | "title" => return .title (← readDefault readTitle attributes)
  | "slider" => readSlider attributes
  | "datepicker" => return .datepicker (← readDefault readString attributes)
  | other => .error (.unknownVariant other FieldKind.names)

/-- The name of the kind from the member that gives it, which stands there once. -/
def readKindMember (attributes : Attributes) : Except Refusal String := do
  let name? ← foldAttributes
    (fun (name : Option String) key value =>
      if key = "type" then fillSlot name key (readKindName value) else return name)
    none attributes
  match name? with
  | some name => return name
  | none => .error (.missingKey "type")

/-- Reads the kind of a field from the members that are not common to all fields. -/
def readFieldKind (attributes : Attributes) : Except Refusal FieldKind := do
  let name ← readKindMember attributes
  readKind name (attributes.filter (·.1 != "type"))

end BlockForge.Block
