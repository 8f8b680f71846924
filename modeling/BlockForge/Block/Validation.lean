/-
# The rules of a description

The checks go through a description from the front and report every rule that is broken,
so an empty report means that code may be generated. A value is reported at most once: a
value that has to be there and is empty is not also reported for its form.

The warnings concern descriptions that generate code, but probably not the code that was
meant: two fields of one name, of which only the last one counts, and a repeater whose
items are named after a field that it does not have.
-/

import BlockForge.Block.Description
import BlockForge.Block.Issue

namespace BlockForge

/-- An upper-case letter of ASCII and then letters and digits of ASCII. -/
def isPascalName : List Char → Bool
  | [] => false
  | first :: rest => first.isUpper && rest.all Char.isAlphanum

def isSnakeChar (c : Char) : Bool := c.isLower || c.isDigit || c == '_'

def isKebabChar (c : Char) : Bool := c.isLower || c.isDigit || c == '-'

/-- A lower-case letter of ASCII and then lower-case letters, digits and underscores. -/
def isSnakeName : List Char → Bool
  | [] => false
  | first :: rest => first.isLower && rest.all isSnakeChar

/-- What a template name ends in. -/
def templateSuffix : List Char := ['.', 't', 'p', 'l']

/-- What a block code starts with. -/
def codeMark : List Char := ['c', 'p', 'b', '_']

/-- Lower-case letters, digits and dashes, at least one, before the suffix of templates. -/
def isTemplateName (text : List Char) : Bool :=
  match templateSuffix.isSuffixOf? text with
  | some stem => !stem.isEmpty && stem.all isKebabChar
  | none => false

/-- Lower-case letters, digits and underscores, at least one, after the mark of codes. -/
def isBlockCode (text : List Char) : Bool :=
  match codeMark.isPrefixOf? text with
  | some rest => !rest.isEmpty && rest.all isSnakeChar
  | none => false

def reportIf (broken : Bool) (path : List Segment) (problem : Problem) : List Issue :=
  if broken then [⟨path, problem⟩] else []

/-- Reports a text that is empty, or else one that does not have the form asked for. -/
def checkForm (form : List Char → Bool) (path : List Segment) (missing malformed : Problem)
    (text : String) : List Issue :=
  if text.isEmpty then [⟨path, missing⟩] else reportIf (!form text.toList) path malformed

def checkPresent (path : List Segment) (missing : Problem) (text : String) : List Issue :=
  reportIf text.isEmpty path missing

/-- Goes through a list with the position of every item. -/
def checkEach (check : List Segment → α → List Issue) (path : List Segment) (items : List α) :
    List Issue :=
  items.zipIdx.flatMap fun (item, position) => check (path ++ [.index position]) item

/-- Checks an option that has a label of its own. -/
def checkChoice (path : List Segment) : Choice → List Issue
  | .plain _ => []
  | .labeled id label =>
    checkPresent (path ++ [.key "id"]) .choiceIdMissing id
      ++ checkPresent (path ++ [.key "label"]) .choiceLabelMissing label

def checkChoices (path : List Segment) (choices : Option (List Choice)) : List Issue :=
  checkEach checkChoice (path ++ [.key "choices"]) (choices.getD [])

def checkKind (path : List Segment) : FieldKind → List Issue
  | .selector collection pattern =>
    checkPresent (path ++ [.key "collection"]) .collectionMissing collection
      ++ checkPresent (path ++ [.key "selector"]) .patternMissing pattern
  | .select _ choices => checkChoices path choices
  | .radioGroup _ choices => checkChoices path choices
  | .multiselect _ choices => checkChoices path choices
  | .title (some title) =>
    checkPresent (path ++ [.key "defaultValue", .key "tag"]) .titleTagMissing title.tag
  | _ => []

def checkField (path : List Segment) (field : Field) : List Issue :=
  checkForm isSnakeName (path ++ [.key "name"]) .fieldNameMissing .fieldNameNotSnake
      field.name
    ++ checkPresent (path ++ [.key "label"]) .labelMissing field.label
    ++ checkKind path field.kind

/-- Checks the repeater and whether it is announced. -/
def checkRepeater (announced : Bool) (repeater : Option Repeater) : List Issue :=
  match announced, repeater with
  | true, none => [⟨[.key "repeater"], .repeaterMissing⟩]
  | false, some _ => [⟨[.key "repeater"], .repeaterUnannounced⟩]
  | false, none => []
  | true, some repeater =>
    checkPresent [.key "repeater", .key "nameLabel"] .repeaterLabelMissing repeater.label
      ++ checkPresent [.key "repeater", .key "nameFrom"] .nameFromMissing repeater.nameFrom
      ++ reportIf repeater.fields.isEmpty [.key "repeater", .key "fields"]
          .repeaterFieldsMissing
      ++ checkEach checkField [.key "repeater", .key "fields"] repeater.fields

namespace Description

/-- Every broken rule of a description, in its order. -/
def issues (block : Description) : List Issue :=
  checkForm isPascalName [.key "blockName"] .blockNameMissing .blockNameNotPascal
      block.blockName
    ++ checkForm isTemplateName [.key "tplFilename"] .templateMissing .templateMalformed
        block.template
    ++ checkForm isBlockCode [.key "code"] .codeMissing .codeMalformed block.code
    ++ checkPresent [.key "nameLabel"] .displayNameMissing block.displayName
    ++ checkPresent [.key "description"] .aboutMissing block.about
    ++ checkEach checkField [.key "fields"] block.fields
    ++ checkRepeater block.hasRepeater block.repeater

end Description

/-- Reports every field that has the name of an earlier one. -/
def repeatedNames (path : List Segment) : List String → Nat → List Field → List Issue
  | _, _, [] => []
  | earlier, position, field :: rest =>
    reportIf (earlier.contains field.name) (path ++ [.index position, .key "name"])
        (.fieldNameRepeated field.name)
      ++ repeatedNames path (field.name :: earlier) (position + 1) rest

def repeaterWarnings (repeater : Repeater) : List Issue :=
  repeatedNames [.key "repeater", .key "fields"] [] 0 repeater.fields
    ++ reportIf
      (!repeater.nameFrom.isEmpty && !repeater.fields.any (·.name == repeater.nameFrom))
      [.key "repeater", .key "nameFrom"] (.nameFromUnknown repeater.nameFrom)

namespace Description

/-- Warnings about a description that is accepted. -/
def warnings (block : Description) : List Issue :=
  repeatedNames [.key "fields"] [] 0 block.fields
    ++ (block.activeRepeater.map repeaterWarnings).getD []

end Description

end BlockForge
