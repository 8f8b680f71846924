/-
# What the texts of a description reach

The outline of a description is what its class file may depend on outside of literals: the
name of the block, the kinds of its fields, how long its lists are, which options are there,
its truth values and its numbers. A default text that is empty is not written, so in the
outline it counts as one that is not there.

Two descriptions of one outline give class files that differ inside of literals only. Together
with the reader, which finds in every rendered tree the tree that was meant, this says that
no text gets out of its literal.
-/

import BlockForge.Proofs.Code.Outline
import BlockForge.Proofs.Generate.ClassFile

namespace BlockForge

/-- A default text without its contents, if it is written. -/
def blankDefault : Option String → Option String
  | some text => if text.isEmpty then none else some "text"
  | none => none

def blankChoices (choices : List Choice) : List Choice :=
  choices.map fun _ => .plain ""

def blankTexts (texts : List String) : List String :=
  texts.map fun _ => ""

def TitleDefault.outline (title : TitleDefault) : TitleDefault :=
  { title with tag := "", classes := blankTexts title.classes, value := "" }

def FieldKind.outline : FieldKind → FieldKind
  | .text default => .text (blankDefault default)
  | .color default => .color (blankDefault default)
  | .textarea default => .textarea (blankDefault default)
  | .fileUpload path urls => .fileUpload (path.map fun _ => "") (urls.map blankTexts)
  | .selector _ _ => .selector "" ""
  | .editor provider default => .editor provider (blankDefault default)
  | .checkbox default => .checkbox default
  | .select default choices => .select (blankDefault default) (choices.map blankChoices)
  | .radioGroup default choices => .radioGroup (blankDefault default) (choices.map blankChoices)
  | .multiselect default choices =>
    .multiselect (default.map blankTexts) (choices.map blankChoices)
  | .title default => .title (default.map TitleDefault.outline)
  | .slider range => .slider range
  | .datepicker default => .datepicker (blankDefault default)

def Field.outline (field : Field) : Field :=
  { field with name := "", label := "", kind := field.kind.outline }

def Repeater.outline (repeater : Repeater) : Repeater :=
  ⟨"", "", repeater.fields.map Field.outline⟩

/-- A description without its texts, but with the name of its block. -/
def Description.outline (block : Description) : Description where
  blockName := block.blockName
  template := ""
  code := ""
  displayName := ""
  about := ""
  tab := ""
  icon := ""
  hasRepeater := block.hasRepeater
  fields := block.fields.map Field.outline
  repeater := block.repeater.map Repeater.outline

end BlockForge

namespace BlockForge.Generate

open BlockForge.Code BlockForge.Text

theorem outlineEntries_append (front back : Entries) :
    outlineEntries (front ++ back) = outlineEntries front ++ outlineEntries back := by
  induction front with
  | nil => rfl
  | cons first rest ih =>
      obtain ⟨key, value⟩ := first
      rw [List.cons_append, outlineEntries, outlineEntries, ih, List.cons_append]

theorem outlineEntries_defaultText (default : Option String) :
    outlineEntries (defaultText (blankDefault default)) = outlineEntries (defaultText default) := by
  cases default with
  | none => rfl
  | some text =>
      by_cases empty : text.isEmpty
      · simp [blankDefault, defaultText, empty]
      · have written : defaultText (some text) = [entry "default" (.string text)] := by
          rw [defaultText, if_neg empty]
        rw [blankDefault, if_neg empty, written]
        rfl

theorem outlineEntries_map {α : Type} (item : α → Option String × Literal) (items : List α) :
    outlineEntries (items.map item) = items.map fun x =>
      ((item x).1.map fun _ => "", (item x).2.outline) := by
  induction items with
  | nil => rfl
  | cons first rest ih => simp only [List.map_cons, outlineEntries, ih]

theorem outlineEntries_choicesEntry (choices : Option (List Choice)) :
    outlineEntries (choicesEntry (choices.map blankChoices)) =
      outlineEntries (choicesEntry choices) := by
  match choices with
  | none => rfl
  | some [] => rfl
  | some (choice :: rest) =>
      have items : outlineEntries (choiceEntries (blankChoices (choice :: rest))) =
          outlineEntries (choiceEntries (choice :: rest)) := by
        rw [choiceEntries, choiceEntries, blankChoices, List.map_map, outlineEntries_map,
          outlineEntries_map]
        rfl
      have blanked : choicesEntry (some (blankChoices (choice :: rest))) =
          [entry "choices" (.array (choiceEntries (blankChoices (choice :: rest))))] := rfl
      rw [Option.map_some, blanked, choicesEntry]
      simp only [outlineEntries, entry, Literal.outline, items]

theorem outlineEntries_uploadItems (urls : Option (List String)) :
    outlineEntries (uploadItems (urls.map blankTexts)) = outlineEntries (uploadItems urls) := by
  match urls with
  | none => rfl
  | some [] => rfl
  | some (url :: rest) =>
      simp only [Option.map_some, uploadItems, blankTexts, List.map_cons, List.map_map,
        outlineEntries, outlineEntries_map]
      rfl

theorem outline_list (texts : List String) :
    (Literal.list (blankTexts texts)).outline = (Literal.list texts).outline := by
  rw [Literal.outline, Literal.outline, blankTexts, List.map_map]
  rfl

/-- What a kind of field writes outside of literals does not depend on its texts. -/
theorem outlineEntries_kindEntries (kind : FieldKind) :
    outlineEntries (kindEntries kind.outline) = outlineEntries (kindEntries kind) := by
  cases kind with
  | fileUpload path urls =>
      simp only [FieldKind.outline, kindEntries, outlineEntries, entry, Literal.outline,
        outlineEntries_uploadItems]
  | multiselect default choices =>
      rcases default with _ | _ | ⟨value, rest⟩
      · exact outlineEntries_choicesEntry choices
      · exact outlineEntries_choicesEntry choices
      · have values := outline_list (value :: rest)
        have options := outlineEntries_choicesEntry choices
        rw [blankTexts, List.map_cons] at values
        simp only [FieldKind.outline, kindEntries, Option.map_some, blankTexts, List.map_cons,
          List.cons_append, List.nil_append, outlineEntries, entry, options, values]
  | title default =>
      cases default with
      | none => rfl
      | some title =>
          have classes := outline_list title.classes
          rw [Literal.outline, Literal.outline] at classes
          simp only [FieldKind.outline, kindEntries, Option.map_some, titleEntries, outlineEntries,
            entry, TitleDefault.outline, Literal.outline, classes]
  | slider range => rfl
  | editor provider default =>
      simp only [FieldKind.outline, kindEntries, outlineEntries, outlineEntries_defaultText]
  | text default => exact outlineEntries_defaultText default
  | color default => exact outlineEntries_defaultText default
  | textarea default => exact outlineEntries_defaultText default
  | datepicker default => exact outlineEntries_defaultText default
  | select default choices =>
      simp only [FieldKind.outline, kindEntries, outlineEntries_append, outlineEntries_defaultText,
        outlineEntries_choicesEntry]
  | radioGroup default choices =>
      simp only [FieldKind.outline, kindEntries, outlineEntries_append, outlineEntries_defaultText,
        outlineEntries_choicesEntry]
  | selector collection pattern => rfl
  | checkbox default => rfl

theorem outlineEntries_fieldEntries (field : Field) :
    outlineEntries (fieldEntries field.outline) = outlineEntries (fieldEntries field) := by
  simp only [fieldEntries, Field.outline, outlineEntries_append, outlineEntries_kindEntries,
    outlineEntries, entry, Literal.outline, Option.map_some]
  rfl

theorem outlineEntries_fieldsEntries (fields : List Field) :
    outlineEntries (fieldsEntries (fields.map Field.outline)) =
      outlineEntries (fieldsEntries fields) := by
  rw [fieldsEntries, fieldsEntries, List.map_map, outlineEntries_map, outlineEntries_map]
  simp only [Function.comp_apply, entry, Literal.outline, outlineEntries_fieldEntries,
    Option.map_some]

/-- The path of a template without its texts. -/
def blankPath : List Char :=
  quote [] ++ (' ' :: '.' :: ' ' :: (moduleVariable ++ (' ' :: '.' :: ' ' :: quote [])))

theorem eraseLiterals_templatePath (template : String) :
    eraseLiterals (templatePath template).toList = some blankPath := by
  have point : eraseLiterals [' ', '.', ' '] = some [' ', '.', ' '] :=
    eraseLiterals_of_no_quote (by decide)
  have moduleName : eraseLiterals moduleVariable = some moduleVariable :=
    eraseLiterals_of_no_quote (by decide)
  rw [toList_templatePath]
  exact eraseLiterals_append (eraseLiterals_quote _) (eraseLiterals_append point
    (eraseLiterals_append moduleName (eraseLiterals_append point (eraseLiterals_quote _))))

theorem outlineEntries_configEntry (fields : List Field) :
    outlineEntries (configEntry (fields.map Field.outline)) =
      outlineEntries (configEntry fields) := by
  cases fields with
  | nil => rfl
  | cons field rest =>
      have items := outlineEntries_fieldsEntries (field :: rest)
      rw [List.map_cons] at items ⊢
      simp only [configEntry, outlineEntries, entry, Literal.outline, items]

theorem outlineEntries_repeaterEntry (repeater : Option Repeater) :
    outlineEntries (repeaterEntry (repeater.map Repeater.outline)) =
      outlineEntries (repeaterEntry repeater) := by
  cases repeater with
  | none => rfl
  | some repeater =>
      simp only [Option.map_some, repeaterEntry, repeaterEntries, Repeater.outline, outlineEntries,
        entry, Literal.outline, outlineEntries_fieldsEntries]

theorem activeRepeater_outline (block : Description) :
    block.outline.activeRepeater = block.activeRepeater.map Repeater.outline := by
  rw [Description.activeRepeater, Description.activeRepeater, Description.outline]
  split <;> rfl

/-- The outline of a definition does not depend on the texts of the description. -/
theorem outlineEntries_definition (block : Description) :
    outlineEntries (definition block.outline) = outlineEntries (definition block) := by
  have fields := outlineEntries_configEntry block.fields
  have repeater := outlineEntries_repeaterEntry block.activeRepeater
  rw [← activeRepeater_outline] at repeater
  simp only [definition, outlineEntries_append, repeater]
  simp only [Description.outline, fields, outlineEntries, entry, eraseLiterals_templatePath,
    Literal.outline, Option.map_some, Option.getD_some]

/-- The class file of a block with the contents of its literals erased. -/
def blankClassText (block : Description) : List Char :=
  classHead block.className ++ ("return ".toList ++
    '[' :: '\n' :: (indent definitionColumns
        (joinLines (renderLines (outlineEntries (definition block)))) ++
      '\n' :: (List.replicate 8 ' ' ++ ']' :: classTail)))

theorem eraseLiterals_classText {block : Description}
    (pascal : isPascalName block.blockName.toList) :
    eraseLiterals (classText block).toList = some (blankClassText block) := by
  have plain := opensNothing_classHead (isAlphanum_className pascal)
  have head : eraseLiterals (classHead block.className ++ "return ".toList) =
      some (classHead block.className ++ "return ".toList) :=
    eraseLiterals_of_no_quote (notMem_of_opensNothing plain rfl)
  have opens : eraseLiterals ['[', '\n'] = some ['[', '\n'] :=
    eraseLiterals_of_no_quote (by decide)
  have closes : eraseLiterals ('\n' :: (List.replicate 8 ' ' ++ ']' :: classTail)) =
      some ('\n' :: (List.replicate 8 ' ' ++ ']' :: classTail)) :=
    eraseLiterals_of_no_quote (by decide)
  have body := eraseLiterals_indent
    (eraseLiterals_lines (definition block) (readable_definition block)) definitionColumns
  have whole := eraseLiterals_append head
    (eraseLiterals_append opens (eraseLiterals_append body closes))
  simp only [List.cons_append, List.nil_append] at whole
  rw [toList_classText, layout_classSteps, blankClassText, ← List.append_assoc,
    ← List.append_assoc (classHead _)]
  exact whole

/-- No text gets out of its literal. What is read from a rendered array without expressions
has exactly its entries, keys, numbers and constants, with texts that differ by spaces
behind newlines at most; and of two descriptions of one outline, the class files are the
same once the contents of their literals are erased. -/
theorem texts_stay_inside :
    (∀ entries : Entries, (Literal.array entries).sources = [] →
      ∃ read, readSource (Literal.array entries).render = some read ∧
        read.shape = (Literal.array entries).meant.shape ∧
        (Literal.array entries).meant.texts.Forall₂ SpacedOut read.texts) ∧
    (∀ first second : Description, isPascalName first.blockName.toList →
      first.outline = second.outline →
      ∃ outline, eraseLiterals (classText first).toList = some outline ∧
        eraseLiterals (classText second).toList = some outline) := by
  constructor
  · intro entries plain
    have readable : Readable (Literal.array entries).sources := by
      rw [plain]
      exact fun source mem => nomatch mem
    exact ⟨_, Literal.readSource_render _ readable, Literal.shape_seen _,
      (Literal.texts_seen _).imp fun _ _ moved => moved.spacedOut⟩
  · intro first second pascal same
    have sameName : first.outline.blockName = second.outline.blockName := by rw [same]
    rw [Description.outline, Description.outline] at sameName
    have sameDefinition : outlineEntries (definition first) =
        outlineEntries (definition second) := by
      rw [← outlineEntries_definition first, same, outlineEntries_definition second]
    have sameText : blankClassText first = blankClassText second := by
      rw [blankClassText, blankClassText, Description.className, Description.className, sameName,
        sameDefinition]
    refine ⟨blankClassText first, eraseLiterals_classText pascal, ?_⟩
    rw [sameText]
    exact eraseLiterals_classText (by rwa [← sameName])

/-- A block with one line of text and a default for it. -/
def greetingBlock (greeting : String) : Description :=
  { twoLineBlock with
    about := "Words"
    fields := [⟨"title", "Title", none, .text (some greeting)⟩] }

theorem texts_stay_inside_greetingBlock :
    (∃ read, readSource (Literal.array [entry "?>" (.string "');\n")]).render = some read ∧
      read.shape = .array [(some [], .text [])]) ∧
    ∃ outline, eraseLiterals (classText (greetingBlock "Hello")).toList = some outline ∧
      eraseLiterals (classText (greetingBlock "');\n?>")).toList = some outline := by
  obtain ⟨read, found, sameShape, _⟩ := texts_stay_inside.1 [entry "?>" (.string "');\n")] rfl
  exact ⟨⟨read, found, sameShape⟩, texts_stay_inside.2 _ _ (by decide) (by decide)⟩

/-- The outline of a greeting ends in what its default writes. -/
theorem outlineEntries_greetingBlock {greeting : String} (written : Entries)
    (default : outlineEntries (defaultText (some greeting)) = written) :
    outlineEntries (definition (greetingBlock greeting)) =
      [(some "", .localized ""), (some "", .localized ""), (some "", .string ""),
        (some "", .string ""), (some "", .string ""), (some "", .bool true),
        (some "", .array [(some "", .expression (String.ofList blankPath))]),
        (some "", .array [(some "", .array [(some "", .array
          ([(some "", .string ""), (some "", .localized "")] ++ written))])])] := by
  subst default
  simp only [greetingBlock, twoLineBlock, definition, outlineEntries, outlineEntries_append, entry,
    Literal.outline, eraseLiterals_templatePath, Option.getD_some, Option.map_some, configEntry,
    fieldsEntries, List.map_cons, List.map_nil, fieldEntries, kindEntries]
  rfl

/-- An empty default is left out, so filling it in is seen outside of its literal. -/
theorem eraseLiterals_empty_greeting_ne :
    (greetingBlock "").issues.isEmpty ∧ (greetingBlock "Hello").issues.isEmpty ∧
      eraseLiterals (classText (greetingBlock "")).toList ≠
        eraseLiterals (classText (greetingBlock "Hello")).toList := by
  refine ⟨by decide, by decide, fun same => ?_⟩
  rw [eraseLiterals_classText (by decide), eraseLiterals_classText (by decide), Option.some.injEq,
    blankClassText, blankClassText] at same
  have sameArray := List.append_cancel_left (List.append_cancel_left same)
  rw [List.cons.injEq, List.cons.injEq] at sameArray
  have sameBody := List.append_cancel_right sameArray.2.2
  rw [outlineEntries_greetingBlock [] rfl,
    outlineEntries_greetingBlock [(some "", .string "")] rfl] at sameBody
  revert sameBody
  decide +kernel

end BlockForge.Generate
