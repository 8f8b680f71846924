/-
# Reading block descriptions

A description is read from a tree of any origin. Its members may come in any order, some
of them under two names, and a member met twice under either name is refused. What may be
left out has a default. A description or a repeater may also be written as an array of its
values in their order; a field may not, since its attributes have no order.

Every reader is a walk over the members in the order of the text that fills a draft, and
then a look at the gaps of the draft in the order of the members.
-/

import BlockForge.Block.Attributes
import BlockForge.Block.Description
import BlockForge.Json.Reading

namespace BlockForge.Block

open BlockForge.Json

/-- What is known of a field while its members are gone through. The members that belong
to the kind are held back in their order. -/
structure FieldDraft where
  name : Option String := none
  label : Option String := none
  force : Option (Option Bool) := none
  /-- The members held back, the last one first. -/
  held : Attributes := []

def FieldDraft.take (origin : Origin) (draft : FieldDraft) (key : String) (standing : Nat)
    (node : Node) : Except Fault FieldDraft :=
  match key with
  | "name" => return { draft with name := ← fill draft.name key standing node.string }
  | "label" => return { draft with label := ← fill draft.label key standing node.string }
  | "forceDefaultValue" =>
    return { draft with force := ← fill draft.force key standing (node.optional Node.bool) }
  | _ => do
    let value ← node.value origin
    return { draft with held := (key, value) :: draft.held }

/-- The field that a draft describes whose object ends at a place. -/
def FieldDraft.field (draft : FieldDraft) (stop : Nat) : Except Fault Field := do
  let name ← need draft.name "name" stop
  let label ← need draft.label "label" stop
  match readFieldKind draft.held.reverse with
  | .ok kind => return ⟨name, label, draft.force.join, kind⟩
  | .error refusal => .error (.refused refusal stop)

def readField (origin : Origin) : Node → Except Fault Field :=
  Node.mapOnly origin "struct Field" fun origin members => do
    let (draft, stop) ← members.fold (FieldDraft.take origin) {}
    draft.field stop

def readFields (origin : Origin) : Node → Except Fault (List Field) :=
  Node.list origin readField

structure RepeaterDraft where
  label : Option String := none
  nameFrom : Option String := none
  fields : Option (List Field) := none

def RepeaterDraft.take (origin : Origin) (draft : RepeaterDraft) (key : String)
    (standing : Nat) (node : Node) : Except Fault RepeaterDraft :=
  let label := fill draft.label "nameLabel" standing node.string
  match key with
  | "nameLabel" => return { draft with label := ← label }
  | "label" => return { draft with label := ← label }
  | "nameFrom" =>
    return { draft with nameFrom := ← fill draft.nameFrom key standing node.string }
  | "fields" =>
    return { draft with fields := ← fill draft.fields key standing (readFields origin node) }
  | _ => do
    node.skip
    return draft

def readRepeaterMembers (origin : Origin) (members : Members) : Except Fault Repeater := do
  let (draft, stop) ← members.fold (RepeaterDraft.take origin) {}
  let label ← need draft.label "nameLabel" stop
  let nameFrom ← need draft.nameFrom "nameFrom" stop
  return ⟨label, nameFrom, draft.fields.getD []⟩

/-- Reads a repeater that is written as an array. -/
def readRepeaterItems (origin : Origin) (items : Items) : Except Fault Repeater := do
  let expected := "struct Repeater with 3 elements"
  let (label, rest) ← items.required 0 expected Node.string
  let (nameFrom, rest) ← rest.required 1 expected Node.string
  let (fields, rest) ← rest.orDefault [] (readFields origin)
  items.finish origin rest
  return ⟨label, nameFrom, fields⟩

def readRepeater (origin : Origin) : Node → Except Fault Repeater :=
  Node.record origin "struct Repeater" readRepeaterItems readRepeaterMembers

structure DescriptionDraft where
  blockName : Option String := none
  template : Option String := none
  code : Option String := none
  displayName : Option String := none
  about : Option String := none
  tab : Option String := none
  icon : Option String := none
  hasRepeater : Option Bool := none
  fields : Option (List Field) := none
  repeater : Option (Option Repeater) := none

/-- The members of a description; two of them have a second name. -/
inductive Key where
  | blockName
  | template
  | code
  | displayName
  | about
  | tab
  | icon
  | hasRepeater
  | fields
  | repeater
  deriving DecidableEq

def Key.ofName? (name : String) : Option Key :=
  match name with
  | "blockName" => some .blockName
  | "tplFilename" => some .template
  | "templateFilename" => some .template
  | "code" => some .code
  | "nameLabel" => some .displayName
  | "displayName" => some .displayName
  | "description" => some .about
  | "tab" => some .tab
  | "icon" => some .icon
  | "hasRepeater" => some .hasRepeater
  | "fields" => some .fields
  | "repeater" => some .repeater
  | _ => none

/-- The name that a member is written under. -/
def Key.name : Key → String
  | .blockName => "blockName"
  | .template => "tplFilename"
  | .code => "code"
  | .displayName => "nameLabel"
  | .about => "description"
  | .tab => "tab"
  | .icon => "icon"
  | .hasRepeater => "hasRepeater"
  | .fields => "fields"
  | .repeater => "repeater"

def DescriptionDraft.take (origin : Origin) (draft : DescriptionDraft) (name : String)
    (standing : Nat) (node : Node) : Except Fault DescriptionDraft :=
  match Key.ofName? name with
  | none => do
    node.skip
    return draft
  | some key =>
    let name := key.name
    match key with
    | .blockName =>
      return { draft with blockName := ← fill draft.blockName name standing node.string }
    | .template =>
      return { draft with template := ← fill draft.template name standing node.string }
    | .code => return { draft with code := ← fill draft.code name standing node.string }
    | .displayName =>
      return { draft with displayName := ← fill draft.displayName name standing node.string }
    | .about => return { draft with about := ← fill draft.about name standing node.string }
    | .tab => return { draft with tab := ← fill draft.tab name standing node.string }
    | .icon => return { draft with icon := ← fill draft.icon name standing node.string }
    | .hasRepeater =>
      return { draft with hasRepeater := ← fill draft.hasRepeater name standing node.bool }
    | .fields =>
      return { draft with
        fields := ← fill draft.fields name standing (readFields origin node) }
    | .repeater =>
      return { draft with
        repeater := ← fill draft.repeater name standing
          (node.optional (readRepeater origin)) }

/-- The description that a draft describes whose object ends at a place. -/
def DescriptionDraft.description (draft : DescriptionDraft) (stop : Nat) :
    Except Fault Description := do
  let blockName ← need draft.blockName Key.blockName.name stop
  let template ← need draft.template Key.template.name stop
  let code ← need draft.code Key.code.name stop
  let displayName ← need draft.displayName Key.displayName.name stop
  let about ← need draft.about Key.about.name stop
  let hasRepeater ← need draft.hasRepeater Key.hasRepeater.name stop
  return {
    blockName, template, code, displayName, about, hasRepeater
    tab := draft.tab.getD Description.defaultTab
    icon := draft.icon.getD Description.defaultIcon
    fields := draft.fields.getD []
    repeater := draft.repeater.join }

def readDescriptionMembers (origin : Origin) (members : Members) :
    Except Fault Description := do
  let (draft, stop) ← members.fold (DescriptionDraft.take origin) {}
  draft.description stop

def readDescriptionItems (origin : Origin) (items : Items) : Except Fault Description := do
  let expected := "struct BlockDescription with 10 elements"
  let (blockName, rest) ← items.required 0 expected Node.string
  let (template, rest) ← rest.required 1 expected Node.string
  let (code, rest) ← rest.required 2 expected Node.string
  let (displayName, rest) ← rest.required 3 expected Node.string
  let (about, rest) ← rest.required 4 expected Node.string
  let (tab, rest) ← rest.orDefault Description.defaultTab Node.string
  let (icon, rest) ← rest.orDefault Description.defaultIcon Node.string
  let (hasRepeater, rest) ← rest.required 7 expected Node.bool
  let (fields, rest) ← rest.orDefault [] (readFields origin)
  let (repeater, rest) ← rest.orDefault none (Node.optional (readRepeater origin))
  items.finish origin rest
  return {
    blockName, template, code, displayName, about, tab, icon, hasRepeater, fields, repeater }

def readDescription (origin : Origin) : Node → Except Fault Description :=
  Node.record origin "struct BlockDescription" readDescriptionItems readDescriptionMembers

end BlockForge.Block
