/-
# Descriptions as values

A description is written with its members in the order of their declaration. What is
optional and not there is left out. The stored form of a description is the canonical form
of the same value, with its keys in increasing order.

A double that is not finite is kept here. JSON has no number for it: its text and its
stored form are null.
-/

import BlockForge.Block.Reading
import BlockForge.Json.Printer

namespace BlockForge.Block

open BlockForge.Json

/-- A member that is written only where there is a value. -/
def optionalMember (key : String) (write : α → Value) (value : Option α) :
    List (String × Value) :=
  match value with
  | some value => [(key, write value)]
  | none => []

def stringArray (texts : List String) : Value := .array (texts.map .string)

/-- An option as it is written: a text that is its own label stays a text. -/
def choiceValue : Choice → Value
  | .plain text => .string text
  | .labeled id label => .object [("id", .string id), ("label", .string label)]

def choicesValue (choices : List Choice) : Value := .array (choices.map choiceValue)

/-- The default of a title with all of its members. -/
def titleValue (title : TitleDefault) : Value :=
  .object [
    ("tag", .string title.tag),
    ("classes", stringArray title.classes),
    ("value", .string title.value),
    ("focus", .bool title.focus),
    ("bold", .bool title.bold),
    ("italic", .bool title.italic),
    ("underline", .bool title.underline),
    ("size", .ofInt title.size)]

/-- The members that only one kind of field has. -/
def attributesOf : FieldKind → List (String × Value)
  | .text default => optionalMember "defaultValue" .string default
  | .color default => optionalMember "defaultValue" .string default
  | .textarea default => optionalMember "defaultValue" .string default
  | .fileUpload path urls =>
    optionalMember "path" .string path ++ optionalMember "defaultUrls" stringArray urls
  | .selector collection pattern =>
    [("collection", .string collection), ("selector", .string pattern)]
  | .editor provider default =>
    optionalMember "provider" (fun p => .string p.name) provider
      ++ optionalMember "defaultValue" .string default
  | .checkbox default => optionalMember "defaultValue" .bool default
  | .select default choices =>
    optionalMember "defaultValue" .string default
      ++ optionalMember "choices" choicesValue choices
  | .radioGroup default choices =>
    optionalMember "defaultValue" .string default
      ++ optionalMember "choices" choicesValue choices
  | .multiselect default choices =>
    optionalMember "defaultValue" stringArray default
      ++ optionalMember "choices" choicesValue choices
  | .title default => optionalMember "defaultValue" titleValue default
  | .slider range =>
    optionalMember "defaultValue" .ofFloat range.default
      ++ optionalMember "step" .ofFloat range.step
      ++ optionalMember "min" .ofFloat range.least
      ++ optionalMember "max" .ofFloat range.greatest
  | .datepicker default => optionalMember "defaultValue" .string default

def fieldValue (field : Field) : Value :=
  .object
    ([("name", .string field.name), ("label", .string field.label)]
      ++ optionalMember "forceDefaultValue" .bool field.forceDefault
      ++ ("type", .string field.kind.name) :: attributesOf field.kind)

def fieldsValue (fields : List Field) : Value := .array (fields.map fieldValue)

def repeaterValue (repeater : Repeater) : Value :=
  .object [
    ("nameLabel", .string repeater.label),
    ("nameFrom", .string repeater.nameFrom),
    ("fields", fieldsValue repeater.fields)]

/-- A description as a value, its members in order. -/
def descriptionValue (block : Description) : Value :=
  .object
    ([(Key.blockName.name, .string block.blockName),
      (Key.template.name, .string block.template),
      (Key.code.name, .string block.code),
      (Key.displayName.name, .string block.displayName),
      (Key.about.name, .string block.about),
      (Key.tab.name, .string block.tab),
      (Key.icon.name, .string block.icon),
      (Key.hasRepeater.name, .bool block.hasRepeater),
      (Key.fields.name, fieldsValue block.fields)]
      ++ optionalMember Key.repeater.name repeaterValue block.repeater)

end BlockForge.Block
