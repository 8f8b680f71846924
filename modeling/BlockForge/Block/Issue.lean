/-
# Issues

An issue says that a rule is broken and where: the path leads from the description through
keys and positions to the value that breaks the rule. Issues that reject a description and
warnings about an accepted one have the same form.
-/

import BlockForge.Decimal.Notation

namespace BlockForge

/-- One step of a path. -/
inductive Segment where
  | key (name : String)
  | index (position : Nat)
  deriving DecidableEq

def Segment.text : Segment → String
  | key name => name
  | index position => String.ofList (natChars position)

/-- A path as it is written: its steps with a dot between each two. -/
def pathText (path : List Segment) : String :=
  ".".intercalate (path.map Segment.text)

/-- What is wrong at a path. -/
inductive Problem where
  | blockNameMissing
  | blockNameNotPascal
  | templateMissing
  | templateMalformed
  | codeMissing
  | codeMalformed
  | displayNameMissing
  | aboutMissing
  | fieldNameMissing
  | fieldNameNotSnake
  | labelMissing
  | collectionMissing
  | patternMissing
  | choiceIdMissing
  | choiceLabelMissing
  | titleTagMissing
  | repeaterMissing
  | repeaterUnannounced
  | repeaterLabelMissing
  | nameFromMissing
  | repeaterFieldsMissing
  | fieldNameRepeated (name : String)
  | nameFromUnknown (name : String)
  | unreadable (message : String)
  deriving DecidableEq

def Problem.message : Problem → String
  | blockNameMissing => "Block name is required"
  | blockNameNotPascal => "Use PascalCase (ex: HeroBanner)"
  | templateMissing => "TPL filename is required"
  | templateMalformed => "Example: hero-banner.tpl"
  | codeMissing => "Code is required"
  | codeMalformed => "Example: cpb_herobanner"
  | displayNameMissing => "Displayed name is required"
  | aboutMissing => "Description is required"
  | fieldNameMissing => "Field name is required"
  | fieldNameNotSnake => "Use snake_case (ex: title, image_alt)"
  | labelMissing => "Label is required"
  | collectionMissing => "collection is required (ex: Product)"
  | patternMissing => "selector pattern is required (ex: \x7bid\x7d - \x7bname\x7d)"
  | choiceIdMissing => "Choice id is required"
  | choiceLabelMissing => "Choice label is required"
  | titleTagMissing => "Title tag is required"
  | repeaterMissing => "Repeater is required when hasRepeater is true"
  | repeaterUnannounced => "Repeater must be omitted when hasRepeater is false"
  | repeaterLabelMissing => "Repeater label is required"
  | nameFromMissing => "nameFrom is required"
  | repeaterFieldsMissing => "At least one repeater field is required"
  | fieldNameRepeated name =>
    "duplicate field name '" ++ name ++ "'; the last declaration wins"
  | nameFromUnknown name => "'" ++ name ++ "' does not match any repeater field name"
  | unreadable message => message

/-- A problem and the path to the value that has it. -/
structure Issue where
  path : List Segment
  problem : Problem
  deriving DecidableEq

def Issue.text (issue : Issue) : String :=
  pathText issue.path ++ ": " ++ issue.problem.message

end BlockForge
