/-
# The array of a field

Every field of a description becomes an array of the generated definition. Its entries
have a fixed order: the kind, the label, the forced default, and then what the kind has. A
default that is empty is left out like one that is not there; a checkbox and an upload
always have one.
-/

import BlockForge.Block.Description
import BlockForge.Code.Literal

namespace BlockForge.Generate

open BlockForge.Code

/-- The path of uploads that name none. It is written for the inside of a literal and is
escaped like every other path. -/
def defaultUploadPath : String := "$/img/' . $this->module->name . '/"

/-- The entries of a default text that is neither missing nor empty. -/
def defaultText : Option String → Entries
  | some text => if text.isEmpty then [] else [entry "default" (.string text)]
  | none => []

/-- Options as entries from identifiers to labels. -/
def choiceEntries (choices : List Choice) : Entries :=
  choices.map fun choice => entry choice.id (.string choice.label)

def choicesEntry : Option (List Choice) → Entries
  | some (choice :: rest) => [entry "choices" (.array (choiceEntries (choice :: rest)))]
  | _ => []

def titleEntries (title : TitleDefault) : Entries :=
  [entry "tag" (.string title.tag),
    entry "classes" (.list title.classes),
    entry "value" (.string title.value),
    entry "focus" (.bool title.focus),
    entry "bold" (.bool title.bold),
    entry "italic" (.bool title.italic),
    entry "underline" (.bool title.underline),
    entry "size" (.int title.size)]

/-- The items of an upload: its files, or one without a name. -/
def uploadItems (urls : Option (List String)) : Entries :=
  let names :=
    match urls with
    | some (url :: rest) => url :: rest
    | _ => [""]
  names.map fun url => (none, .inline [entry "url" (.string url)])

def numberEntry (key : String) : Option Binary64 → Entries
  | some x => [entry key (.number x)]
  | none => []

/-- The entries that only one kind of field has. -/
def kindEntries : FieldKind → Entries
  | .text default => defaultText default
  | .color default => defaultText default
  | .textarea default => defaultText default
  | .datepicker default => defaultText default
  | .fileUpload path urls =>
    [entry "path" (.string (path.getD defaultUploadPath)),
      entry "default" (.array (uploadItems urls))]
  | .selector collection pattern =>
    [entry "collection" (.string collection), entry "selector" (.string pattern)]
  | .editor provider default =>
    entry "provider" (.string (provider.getD .vuequill).name) :: defaultText default
  | .checkbox default => [entry "default" (.bool (default.getD false))]
  | .select default choices => defaultText default ++ choicesEntry choices
  | .radioGroup default choices => defaultText default ++ choicesEntry choices
  | .multiselect default choices =>
    (match default with
      | some (value :: rest) => [entry "default" (.list (value :: rest))]
      | _ => [])
      ++ choicesEntry choices
  | .title (some title) => [entry "default" (.array (titleEntries title))]
  | .title none => []
  | .slider range =>
    numberEntry "step" range.step ++ numberEntry "min" range.least
      ++ numberEntry "max" range.greatest ++ numberEntry "default" range.default

def fieldEntries (field : Field) : Entries :=
  [entry "type" (.string field.kind.name), entry "label" (.localized field.label)]
    ++ (if field.forceDefault = some true then [entry "force_default_value" (.bool true)]
        else [])
    ++ kindEntries field.kind

/-- Fields as entries from names to arrays. Two fields of one name are both written; of
their entries the last one counts. -/
def fieldsEntries (fields : List Field) : Entries :=
  fields.map fun field => entry field.name (.array (fieldEntries field))

end BlockForge.Generate
