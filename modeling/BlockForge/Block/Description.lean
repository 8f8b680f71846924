/-
# Block descriptions

A block description is what code is generated from: the names of the block, its fields,
and possibly a repeater, a group of fields that stands for each item of a list. The flag
for the repeater and the repeater itself are separate because a description may be read in
which they disagree; a repeater is active only where both are there.

A field is one typed and named input of a block. What every kind of field has, a name, a
label and possibly a forced default, is kept beside the kind; what only one kind has is
kept in that kind. Several kinds carry nothing but a default text and differ in how the
back office edits it.
-/

import BlockForge.Decimal.Binary64

namespace BlockForge

/-! ## Fields -/

/-- One selectable option: a text that is its own label, or an identifier with a label. -/
inductive Choice where
  | plain (text : String)
  | labeled (id label : String)
  deriving DecidableEq

namespace Choice

def id : Choice → String
  | plain text => text
  | labeled id _ => id

def label : Choice → String
  | plain text => text
  | labeled _ label => label

end Choice

/-- The default of a title: its text, its element and how it looks. -/
structure TitleDefault where
  tag : String := "h2"
  classes : List String := []
  value : String := ""
  focus : Bool := false
  bold : Bool := false
  italic : Bool := false
  underline : Bool := false
  size : Int := 18
  deriving DecidableEq

/-- The rich text editor that a field uses. -/
inductive EditorProvider where
  | vuequill
  deriving DecidableEq

def EditorProvider.name : EditorProvider → String
  | vuequill => "vuequill"

structure SliderRange where
  default : Option Binary64
  step : Option Binary64
  least : Option Binary64
  greatest : Option Binary64
  deriving DecidableEq

/-- The kind of a field and what that kind carries. -/
inductive FieldKind where
  | text (default : Option String)
  | color (default : Option String)
  | textarea (default : Option String)
  | fileUpload (path : Option String) (urls : Option (List String))
  | selector (collection pattern : String)
  | editor (provider : Option EditorProvider) (default : Option String)
  | checkbox (default : Option Bool)
  | select (default : Option String) (choices : Option (List Choice))
  | radioGroup (default : Option String) (choices : Option (List Choice))
  | multiselect (default : Option (List String)) (choices : Option (List Choice))
  | title (default : Option TitleDefault)
  | slider (range : SliderRange)
  /-- A date; its form is not checked. -/
  | datepicker (default : Option String)
  deriving DecidableEq

/-- The names of the kinds, in the order that numbers them. -/
def FieldKind.names : List String :=
  ["text", "color", "textarea", "fileupload", "selector", "editor", "checkbox", "select",
    "radio_group", "multiselect", "title", "slider", "datepicker"]

def FieldKind.name : FieldKind → String
  | text _ => "text"
  | color _ => "color"
  | textarea _ => "textarea"
  | fileUpload _ _ => "fileupload"
  | selector _ _ => "selector"
  | editor _ _ => "editor"
  | checkbox _ => "checkbox"
  | select _ _ => "select"
  | radioGroup _ _ => "radio_group"
  | multiselect _ _ => "multiselect"
  | title _ => "title"
  | slider _ => "slider"
  | datepicker _ => "datepicker"

/-- A field of a block or of its repeater. -/
structure Field where
  name : String
  label : String
  /-- Whether the default is forced on blocks that exist already, if that is said. -/
  forceDefault : Option Bool := none
  kind : FieldKind
  deriving DecidableEq

def Field.forced (field : Field) : Field :=
  { field with forceDefault := some true }

/-! ## Descriptions -/

/-- A group of fields, one set of them for each item of a list. -/
structure Repeater where
  label : String
  /-- The field whose value names an item. -/
  nameFrom : String
  fields : List Field
  deriving DecidableEq

def Repeater.blank : Repeater := ⟨"", "", []⟩

structure Description where
  blockName : String
  template : String
  code : String
  displayName : String
  about : String
  tab : String
  icon : String
  hasRepeater : Bool
  fields : List Field
  repeater : Option Repeater
  deriving DecidableEq

namespace Description

/-- The tab of blocks that name none. -/
def defaultTab : String := "general"

def defaultIcon : String := "DocumentIcon"

/-- The name of the generated class. -/
def className (block : Description) : String := block.blockName ++ "Block"

/-- The repeater, if the block is said to have it. -/
def activeRepeater (block : Description) : Option Repeater :=
  if block.hasRepeater then block.repeater else none

/-- The description with its repeater turned on or off. Turning it on keeps a repeater that
is there; turning it off drops it. Either way flag and repeater agree afterwards. -/
def setRepeater (block : Description) (on : Bool) : Description :=
  { block with
    hasRepeater := on
    repeater := if on then some (block.repeater.getD .blank) else none }

end Description

end BlockForge
