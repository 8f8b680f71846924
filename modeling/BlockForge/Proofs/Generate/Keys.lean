/-
# Keys of the generated arrays

The keys of a definition come from three sources: the fixed names of entries, the names of fields
and the identifiers of options. The fixed names of one array are all different, and so are the
names of its fields where a description leads to no warning. The identifiers of options are not
compared by any check. Where two options of a field have the same one, the array of its options is
written with a key that stands twice, and the earlier of the two options is lost when the
definition is evaluated.
-/

import BlockForge.Proofs.Block.Rules
import BlockForge.Proofs.Code.Evaluation
import BlockForge.Proofs.Generate.ClassFile
import BlockForge.Proofs.Generate.FieldArray

namespace BlockForge

open BlockForge.Code

/-- No two options of the field have the same identifier. -/
def Field.OptionsApart (field : Field) : Prop :=
  (field.kind.choices.map Choice.id).Nodup

namespace Code.Entries

/-- All entries have keys, which are some of the given names in their order. -/
structure Keyed (names : List String) (entries : Entries) : Prop where
  keyed : ∀ entry ∈ entries, entry.1.isSome
  ordered : entries.keys.Sublist names

/-- An array that loses nothing when it is evaluated. -/
structure WellKeyed (entries : Entries) : Prop where
  unmixed : entries.Unmixed
  distinct : entries.keys.Nodup

variable {names others : List String} {entries back : Entries}

theorem keys_append (entries back : Entries) :
    (entries ++ back).keys = entries.keys ++ back.keys :=
  List.filterMap_append

namespace Keyed

theorem nil (names : List String) : Keyed names [] :=
  ⟨by simp, List.nil_sublist names⟩

theorem single (key : String) (value : Literal) : Keyed [key] [entry key value] :=
  ⟨by simp [entry], List.Sublist.refl _⟩

theorem self (keyed : ∀ entry ∈ entries, entry.1.isSome) : Keyed entries.keys entries :=
  ⟨keyed, List.Sublist.refl _⟩

theorem append (first : Keyed names entries) (second : Keyed others back) :
    Keyed (names ++ others) (entries ++ back) :=
  ⟨List.forall_mem_append.mpr ⟨first.keyed, second.keyed⟩,
    keys_append entries back ▸ first.ordered.append second.ordered⟩

theorem cons (key : String) (value : Literal) (rest : Keyed names entries) :
    Keyed (key :: names) (entry key value :: entries) :=
  (single key value).append rest

theorem mono (keyed : Keyed names entries) (among : names.Sublist others) : Keyed others entries :=
  ⟨keyed.keyed, keyed.ordered.trans among⟩

theorem wellKeyed (keyed : Keyed names entries) (distinct : names.Nodup) : WellKeyed entries :=
  ⟨.inl keyed.keyed, distinct.sublist keyed.ordered⟩

/-- Items that each write a key of their own. -/
theorem map {α : Type} (key : α → String) (value : α → Literal) (items : List α) :
    Keyed (items.map key) (items.map fun item => entry (key item) (value item)) := by
  induction items with
  | nil => exact nil []
  | cons item rest ih => exact cons (key item) (value item) ih

end Keyed

theorem wellKeyed_items (items : ∀ entry ∈ entries, entry.1 = none) : WellKeyed entries :=
  ⟨.inr items, by rw [keys_eq_nil items]; exact List.nodup_nil⟩

end Code.Entries

namespace Generate

open BlockForge.Code.Entries

/-! ## Fixed keys -/

def kindKeys : List String :=
  ["path", "collection", "selector", "provider", "step", "min", "max", "default", "choices"]

def titleKeys : List String :=
  ["tag", "classes", "value", "focus", "bold", "italic", "underline", "size"]

def fieldKeys : List String := ["type", "label"] ++ ["force_default_value"] ++ kindKeys

def definitionKeys : List String :=
  ["name", "description", "code", "tab", "icon", "need_reload", "templates"] ++ ["config"]
    ++ ["repeater"]

theorem keyed_defaultText (default : Option String) : Keyed ["default"] (defaultText default) := by
  cases default with
  | none => exact .nil _
  | some text =>
      rw [defaultText]
      split
      · exact .nil _
      · exact .single _ _

theorem keyed_defaultTexts (default : Option (List String)) :
    Keyed ["default"] (defaultTexts default) := by
  rw [defaultTexts]
  cases normalList default with
  | none => exact .nil _
  | some values => exact .single _ _

theorem keyed_choicesEntry (choices : Option (List Choice)) :
    Keyed ["choices"] (choicesEntry choices) := by
  match choices with
  | none => exact .nil _
  | some [] => exact .nil _
  | some (_ :: _) => exact .single _ _

theorem keyed_numberEntry (key : String) (x : Option Binary64) :
    Keyed [key] (numberEntry key x) := by
  cases x with
  | none => exact .nil _
  | some x => exact .single _ _

theorem keyed_kindEntries (kind : FieldKind) : Keyed kindKeys (kindEntries kind) := by
  have text (default : Option String) : Keyed kindKeys (defaultText default) :=
    (keyed_defaultText default).mono (by decide)
  have choice (default : Option String) (choices : Option (List Choice)) :
      Keyed kindKeys (defaultText default ++ choicesEntry choices) :=
    ((keyed_defaultText default).append (keyed_choicesEntry choices)).mono (by decide)
  cases kind with
  | text default => exact text default
  | color default => exact text default
  | textarea default => exact text default
  | datepicker default => exact text default
  | fileUpload path urls => exact (Keyed.cons _ _ (.single _ _)).mono (by decide)
  | selector collection pattern => exact (Keyed.cons _ _ (.single _ _)).mono (by decide)
  | editor provider default => exact (Keyed.cons _ _ (keyed_defaultText default)).mono (by decide)
  | checkbox default => exact (Keyed.single _ _).mono (by decide)
  | select default choices => exact choice default choices
  | radioGroup default choices => exact choice default choices
  | multiselect default choices =>
      rw [kindEntries_multiselect]
      exact ((keyed_defaultTexts default).append (keyed_choicesEntry choices)).mono (by decide)
  | title default =>
      cases default with
      | none => exact .nil _
      | some title => exact (Keyed.single _ _).mono (by decide)
  | slider range =>
      have numbers := (((keyed_numberEntry "step" range.step).append
        (keyed_numberEntry "min" range.least)).append
        (keyed_numberEntry "max" range.greatest)).append (keyed_numberEntry "default" range.default)
      exact numbers.mono (by decide)

theorem keyed_fieldEntries (field : Field) : Keyed fieldKeys (fieldEntries field) := by
  have forced : Keyed ["force_default_value"] (if field.forceDefault = some true
      then [entry "force_default_value" (.bool true)] else []) := by
    split
    · exact .single _ _
    · exact .nil _
  exact ((Keyed.cons _ _ (.single _ _)).append forced).append (keyed_kindEntries field.kind)

theorem keyed_definition (block : Description) : Keyed definitionKeys (definition block) := by
  have config : Keyed ["config"] (configEntry block.fields) := by
    cases block.fields with
    | nil => exact .nil _
    | cons first rest => exact .single _ _
  have repeater : Keyed ["repeater"] (repeaterEntry block.activeRepeater) := by
    cases block.activeRepeater with
    | none => exact .nil _
    | some repeater => exact .single _ _
  rw [definition]
  refine (((Keyed.self ?_).append config).append repeater).mono (List.Sublist.refl definitionKeys)
  simp [entry]

/-- Fields that are not reported have different names. -/
theorem names_nodup_of_repeatedNames {path : List Segment} {earlier : List String} {position : Nat}
    {fields : List Field} (silent : repeatedNames path earlier position fields = []) :
    (fields.map Field.name).Nodup ∧ ∀ field ∈ fields, field.name ∉ earlier := by
  induction fields generalizing earlier position with
  | nil => simp
  | cons field rest ih =>
      rw [repeatedNames, List.append_eq_nil_iff] at silent
      obtain ⟨distinct, fresh⟩ := ih silent.2
      have own : field.name ∉ earlier := by
        intro known
        simpa [reportIf, known] using silent.1
      refine ⟨?_, List.forall_mem_cons.mpr ⟨own, fun other held known =>
        fresh other held (List.mem_cons_of_mem _ known)⟩⟩
      rw [List.map_cons, List.nodup_cons]
      refine ⟨fun again => ?_, distinct⟩
      obtain ⟨other, held, same⟩ := List.mem_map.mp again
      exact fresh other held (same ▸ List.mem_cons_self)

/-! ## The arrays of a definition -/

theorem entryArrays_eq_nil {entries : Entries} (plain : ∀ entry ∈ entries, entry.2.arrays = []) :
    entryArrays entries = [] := by
  rw [entryArrays_eq_flatMap]
  exact List.flatMap_eq_nil_iff.mpr plain

theorem entryArrays_defaultText (default : Option String) :
    entryArrays (defaultText default) = [] := by
  cases default with
  | none => rfl
  | some text =>
      rw [defaultText]
      split <;> rfl

/-- The options of a field are the only array that is written for them. -/
theorem mem_entryArrays_choicesEntry {choices : Option (List Choice)} {array : Entries} :
    array ∈ entryArrays (choicesEntry choices) ↔
      choices.getD [] ≠ [] ∧ array = choiceEntries (choices.getD []) := by
  match choices with
  | none => simp [choicesEntry]
  | some [] => simp [choicesEntry]
  | some (choice :: rest) =>
      have inner : entryArrays (choiceEntries (choice :: rest)) = [] := by
        refine entryArrays_eq_nil fun item held => ?_
        obtain ⟨option, -, rfl⟩ := List.mem_map.mp held
        rfl
      simp [choicesEntry, entry, entryArrays, Literal.arrays, inner]

theorem wellKeyed_strings (items : List String) :
    WellKeyed (items.map fun item => (none, .string item)) :=
  wellKeyed_items (by simp)

/-- Of the arrays in what only one kind of field has, only the options may lose a value. -/
theorem wellKeyed_of_mem_kindEntries {kind : FieldKind} {array : Entries}
    (held : array ∈ entryArrays (kindEntries kind)) :
    array.WellKeyed ∨ array = choiceEntries kind.choices := by
  have numbers (key : String) (x : Option Binary64) : entryArrays (numberEntry key x) = [] := by
    cases x <;> rfl
  cases kind with
  | text default => simp [kindEntries, entryArrays_defaultText] at held
  | color default => simp [kindEntries, entryArrays_defaultText] at held
  | textarea default => simp [kindEntries, entryArrays_defaultText] at held
  | datepicker default => simp [kindEntries, entryArrays_defaultText] at held
  | selector collection pattern => cases held
  | editor provider default =>
      simp [kindEntries, entryArrays, entry, Literal.arrays, entryArrays_defaultText] at held
  | checkbox default => cases held
  | slider range => simp [kindEntries, entryArrays_append, numbers] at held
  | select default choices =>
      rw [kindEntries, entryArrays_append, entryArrays_defaultText] at held
      exact .inr (mem_entryArrays_choicesEntry.mp held).2
  | radioGroup default choices =>
      rw [kindEntries, entryArrays_append, entryArrays_defaultText] at held
      exact .inr (mem_entryArrays_choicesEntry.mp held).2
  | multiselect default choices =>
      rcases default with _ | _ | ⟨value, rest⟩
      · exact .inr (mem_entryArrays_choicesEntry.mp held).2
      · exact .inr (mem_entryArrays_choicesEntry.mp held).2
      · rcases List.mem_cons.mp held with rfl | options
        · exact .inl (wellKeyed_strings _)
        · exact .inr (mem_entryArrays_choicesEntry.mp options).2
  | title default =>
      cases default with
      | none => cases held
      | some title =>
          rcases List.mem_cons.mp held with rfl | inside
          · have keyed : Keyed _ (titleEntries title) := .self (by simp [titleEntries, entry])
            exact .inl (keyed.wellKeyed (show titleKeys.Nodup by decide))
          · obtain rfl := List.mem_singleton.mp inside
            exact .inl (wellKeyed_strings _)
  | fileUpload path urls =>
      have items : ∀ item ∈ uploadItems urls, ∃ url,
          item = (none, .inline [entry "url" (.string url)]) := by
        intro item among
        obtain ⟨url, -, rfl⟩ := List.mem_map.mp among
        exact ⟨url, rfl⟩
      rcases List.mem_cons.mp held with rfl | inside
      · refine .inl (wellKeyed_items fun item among => ?_)
        obtain ⟨url, rfl⟩ := items item among
        rfl
      · rw [entryArrays, List.append_eq, List.append_nil, entryArrays_eq_flatMap] at inside
        obtain ⟨item, among, own⟩ := List.mem_flatMap.mp inside
        obtain ⟨url, rfl⟩ := items item among
        obtain rfl := List.mem_singleton.mp own
        exact .inl ((Keyed.single _ _).wellKeyed (List.nodup_singleton _))

theorem choiceEntries_mem_kindEntries {kind : FieldKind} (some : kind.choices ≠ []) :
    choiceEntries kind.choices ∈ entryArrays (kindEntries kind) := by
  cases kind with
  | select default choices =>
      rw [kindEntries, entryArrays_append]
      exact List.mem_append_right _ (mem_entryArrays_choicesEntry.mpr ⟨some, rfl⟩)
  | radioGroup default choices =>
      rw [kindEntries, entryArrays_append]
      exact List.mem_append_right _ (mem_entryArrays_choicesEntry.mpr ⟨some, rfl⟩)
  | multiselect default choices =>
      rw [kindEntries_multiselect, entryArrays_append]
      exact List.mem_append_right _ (mem_entryArrays_choicesEntry.mpr ⟨some, rfl⟩)
  | _ => exact absurd rfl some

/-- Every field has one array, and those that its kind has are in it. -/
theorem mem_entryArrays_fieldsEntries {fields : List Field} {array : Entries} :
    array ∈ entryArrays (fieldsEntries fields) ↔
      ∃ field ∈ fields,
        array = fieldEntries field ∨ array ∈ entryArrays (kindEntries field.kind) := by
  have own (field : Field) :
      entryArrays (fieldEntries field) = entryArrays (kindEntries field.kind) := by
    have forced : entryArrays (if field.forceDefault = some true
        then [entry "force_default_value" (.bool true)] else []) = [] := by
      split <;> rfl
    rw [fieldEntries, entryArrays_append, entryArrays_append, forced]
    rfl
  have inside (field : Field) : (entry field.name (.array (fieldEntries field))).2.arrays =
      fieldEntries field :: entryArrays (kindEntries field.kind) := by
    rw [← own]
    rfl
  rw [entryArrays_eq_flatMap, fieldsEntries, List.flatMap_map]
  simp only [inside, List.mem_flatMap, List.mem_cons]

/-- Of the arrays of fields, only the options of one of them may lose a value. -/
theorem wellKeyed_of_mem_fieldsEntries {fields : List Field} {array : Entries}
    (held : array ∈ entryArrays (fieldsEntries fields)) :
    array.WellKeyed ∨ ∃ field ∈ fields, array = choiceEntries field.kind.choices := by
  obtain ⟨field, among, rfl | inside⟩ := mem_entryArrays_fieldsEntries.mp held
  · exact .inl ((keyed_fieldEntries field).wellKeyed (by decide))
  · exact (wellKeyed_of_mem_kindEntries inside).imp_right fun options => ⟨field, among, options⟩

theorem choiceEntries_mem_fieldsEntries {fields : List Field} {field : Field}
    (among : field ∈ fields) (some : field.kind.choices ≠ []) :
    choiceEntries field.kind.choices ∈ entryArrays (fieldsEntries fields) :=
  mem_entryArrays_fieldsEntries.mpr ⟨field, among, .inr (choiceEntries_mem_kindEntries some)⟩

theorem wellKeyed_fieldsEntries {fields : List Field} (distinct : (fields.map Field.name).Nodup) :
    (fieldsEntries fields).WellKeyed :=
  (Keyed.map Field.name _ fields).wellKeyed distinct

theorem wellKeyed_of_mem_configEntry {fields : List Field} {array : Entries}
    (distinct : (fields.map Field.name).Nodup) (held : array ∈ entryArrays (configEntry fields)) :
    array.WellKeyed ∨ ∃ field ∈ fields, array = choiceEntries field.kind.choices := by
  cases fields with
  | nil => cases held
  | cons first rest =>
      simp only [configEntry, entryArrays_array, entryArrays_nil, List.append_nil,
        List.mem_cons] at held
      rcases held with rfl | rfl | inside
      · exact .inl ((Keyed.single _ _).wellKeyed (List.nodup_singleton _))
      · exact .inl (wellKeyed_fieldsEntries distinct)
      · exact wellKeyed_of_mem_fieldsEntries inside

theorem choiceEntries_mem_configEntry {fields : List Field} {field : Field}
    (among : field ∈ fields) (some : field.kind.choices ≠ []) :
    choiceEntries field.kind.choices ∈ entryArrays (configEntry fields) := by
  have inside := choiceEntries_mem_fieldsEntries among some
  cases fields with
  | nil => cases among
  | cons first rest => simp [configEntry, inside]

theorem entryArrays_repeaterEntries (repeater : Repeater) :
    entryArrays (repeaterEntries repeater) =
      fieldsEntries repeater.fields :: entryArrays (fieldsEntries repeater.fields) := by
  rw [← List.append_nil (entryArrays (fieldsEntries repeater.fields))]
  rfl

theorem wellKeyed_of_mem_repeaterEntry {repeater : Option Repeater} {array : Entries}
    (distinct : ∀ own ∈ repeater, (own.fields.map Field.name).Nodup)
    (held : array ∈ entryArrays (repeaterEntry repeater)) :
    array.WellKeyed ∨ ∃ field ∈ (repeater.map Repeater.fields).getD [],
      array = choiceEntries field.kind.choices := by
  cases repeater with
  | none => cases held
  | some repeater =>
      simp only [repeaterEntry, entryArrays_array, entryArrays_repeaterEntries, entryArrays_nil,
        List.append_nil, List.mem_cons] at held
      rcases held with rfl | rfl | inside
      · have keyed : Keyed _ (repeaterEntries repeater) := .self (by simp [repeaterEntries, entry])
        exact .inl (keyed.wellKeyed (show ["name", "nameFrom", "groups"].Nodup by decide))
      · exact .inl (wellKeyed_fieldsEntries (distinct repeater rfl))
      · exact wellKeyed_of_mem_fieldsEntries inside

theorem choiceEntries_mem_repeaterEntry {repeater : Option Repeater} {field : Field}
    (among : field ∈ (repeater.map Repeater.fields).getD []) (some : field.kind.choices ≠ []) :
    choiceEntries field.kind.choices ∈ entryArrays (repeaterEntry repeater) := by
  cases repeater with
  | none => cases among
  | some repeater =>
      have inside := choiceEntries_mem_fieldsEntries among some
      simp only [repeaterEntry, entryArrays_array, entryArrays_repeaterEntries, entryArrays_nil,
        List.append_nil]
      exact List.mem_cons_of_mem _ (List.mem_cons_of_mem _ inside)

variable {block : Description}

theorem arrays_definition (block : Description) :
    (Literal.array (definition block)).arrays =
      definition block :: [entry "default" (.expression (templatePath block.template))]
        :: (entryArrays (configEntry block.fields)
          ++ entryArrays (repeaterEntry block.activeRepeater)) := by
  rw [Literal.arrays, definition, entryArrays_append, entryArrays_append]
  rfl

/-- Of the arrays of a definition, only the options of a field may lose a value. -/
theorem wellKeyed_of_mem_definition (valid : block.issues = []) (unwarned : block.warnings = [])
    {array : Entries} (held : array ∈ (Literal.array (definition block)).arrays) :
    array.WellKeyed ∨ ∃ field ∈ block.allFields, array = choiceEntries field.kind.choices := by
  rw [Description.warnings, List.append_eq_nil_iff, activeRepeater_of_issues valid] at unwarned
  have own := (names_nodup_of_repeatedNames unwarned.1).1
  have inner : ∀ repeater ∈ block.repeater, (repeater.fields.map Field.name).Nodup := by
    intro repeater there
    have silent := unwarned.2
    rw [Option.mem_def.mp there, Option.map_some, Option.getD_some, repeaterWarnings,
      List.append_eq_nil_iff] at silent
    exact (names_nodup_of_repeatedNames silent.1).1
  rw [arrays_definition, activeRepeater_of_issues valid] at held
  simp only [Description.allFields, List.mem_append, or_and_right, exists_or]
  rcases List.mem_cons.mp held with rfl | held
  · exact .inl ((keyed_definition block).wellKeyed (by decide))
  rcases List.mem_cons.mp held with rfl | held
  · exact .inl ((Keyed.single _ _).wellKeyed (List.nodup_singleton _))
  rcases List.mem_append.mp held with inFields | inRepeater
  · exact (wellKeyed_of_mem_configEntry own inFields).imp_right .inl
  · exact (wellKeyed_of_mem_repeaterEntry inner inRepeater).imp_right .inr

theorem choiceEntries_mem_definition (valid : block.issues = []) {field : Field}
    (among : field ∈ block.allFields) (some : field.kind.choices ≠ []) :
    choiceEntries field.kind.choices ∈ (Literal.array (definition block)).arrays := by
  rw [arrays_definition, activeRepeater_of_issues valid]
  refine List.mem_cons_of_mem _ (List.mem_cons_of_mem _ (List.mem_append.mpr ?_))
  rcases List.mem_append.mp among with own | inner
  · exact .inl (choiceEntries_mem_configEntry own some)
  · exact .inr (choiceEntries_mem_repeaterEntry inner some)

theorem keys_choiceEntries (choices : List Choice) :
    (choiceEntries choices).keys = choices.map Choice.id := by
  induction choices with
  | nil => rfl
  | cons choice rest ih => exact congrArg (choice.id :: ·) ih

theorem unmixed_choiceEntries (choices : List Choice) : (choiceEntries choices).Unmixed :=
  .inl (Keyed.map Choice.id (fun choice => .string choice.label) choices).keyed

theorem keepsValues_choiceEntries_iff {field : Field} :
    (choiceEntries field.kind.choices).KeepsValues ↔ field.OptionsApart := by
  rw [keepsValues_iff (unmixed_choiceEntries _), keys_choiceEntries, Field.OptionsApart]

/-- A description that breaks no rule and leads to no warning may lose options of a field and
nothing else when its definition is evaluated. All keys are different, and all values are kept,
exactly if no two options of one field have the same identifier. -/
theorem keepsValues_definition_iff (valid : block.issues = []) (unwarned : block.warnings = []) :
    ((∀ array ∈ (Literal.array (definition block)).arrays, array.keys.Nodup) ↔
        ∀ field ∈ block.allFields, field.OptionsApart) ∧
      ((∀ array ∈ (Literal.array (definition block)).arrays, array.KeepsValues) ↔
        ∀ field ∈ block.allFields, field.OptionsApart) ∧
      ∀ array ∈ (Literal.array (definition block)).arrays, array.KeepsValues ∨
        ∃ field ∈ block.allFields,
          array = choiceEntries field.kind.choices ∧ ¬ field.OptionsApart := by
  have only : ∀ array ∈ (Literal.array (definition block)).arrays, array.WellKeyed ∨
      ∃ field ∈ block.allFields, array = choiceEntries field.kind.choices :=
    fun _ => wellKeyed_of_mem_definition valid unwarned
  have unmixed : ∀ array ∈ (Literal.array (definition block)).arrays, array.Unmixed := by
    intro array held
    rcases only array held with well | ⟨field, -, rfl⟩
    · exact well.unmixed
    · exact unmixed_choiceEntries _
  have kept_iff : (∀ array ∈ (Literal.array (definition block)).arrays, array.KeepsValues) ↔
      ∀ field ∈ block.allFields, field.OptionsApart := by
    constructor
    · intro kept field among
      by_cases some : field.kind.choices = []
      · rw [Field.OptionsApart, some]
        exact List.nodup_nil
      · exact keepsValues_choiceEntries_iff.mp
          (kept _ (choiceEntries_mem_definition valid among some))
    · intro apart array held
      rcases only array held with well | ⟨field, among, rfl⟩
      · exact (keepsValues_iff well.unmixed).mpr well.distinct
      · exact keepsValues_choiceEntries_iff.mpr (apart field among)
  refine ⟨?_, kept_iff, fun array held => ?_⟩
  · rw [← kept_iff]
    exact forall₂_congr fun array held => (keepsValues_iff (unmixed array held)).symm
  · rcases only array held with well | ⟨field, among, rfl⟩
    · exact .inl ((keepsValues_iff well.unmixed).mpr well.distinct)
    · by_cases apart : field.OptionsApart
      · exact .inl (keepsValues_choiceEntries_iff.mpr apart)
      · exact .inr ⟨field, among, rfl, apart⟩

/-- A block with one field, in which one of some options is chosen. -/
def sizeBlock (choices : List Choice) : Description where
  blockName := "Card"
  template := "card.tpl"
  code := "cpb_card"
  displayName := "Card"
  about := "A card"
  tab := Description.defaultTab
  icon := Description.defaultIcon
  hasRepeater := false
  fields := [⟨"size", "Size", none, .select none (some choices)⟩]
  repeater := none

def sizeOptions : List Choice := [.labeled "s" "Small", .labeled "l" "Large"]

theorem keepsValues_definition_two_sizes :
    (sizeBlock sizeOptions).issues = [] ∧ (sizeBlock sizeOptions).warnings = [] ∧
      ∀ array ∈ (Literal.array (definition (sizeBlock sizeOptions))).arrays,
        array.KeepsValues := by
  have valid : (sizeBlock sizeOptions).issues = [] := by decide +kernel
  have unwarned : (sizeBlock sizeOptions).warnings = [] := by decide +kernel
  refine ⟨valid, unwarned, (keepsValues_definition_iff valid unwarned).2.1.mpr ?_⟩
  intro field among
  obtain rfl := List.mem_singleton.mp among
  show ["s", "l"].Nodup
  decide

/-- Two options of one identifier. -/
def twinOptions : List Choice := [.labeled "s" "Small", .labeled "s" "Short"]

/-- Two options of one identifier are accepted without a warning, and one of them is lost. -/
theorem exists_silent_loss :
    ∃ block : Description, block.issues = [] ∧ block.warnings = [] ∧
      ∃ array ∈ (Literal.array (definition block)).arrays,
        ¬ array.keys.Nodup ∧ ¬ array.KeepsValues := by
  have valid : (sizeBlock twinOptions).issues = [] := by decide +kernel
  have among : ⟨"size", "Size", none, .select none (some twinOptions)⟩ ∈
      (sizeBlock twinOptions).allFields := List.mem_singleton_self _
  have repeated : ¬ (choiceEntries twinOptions).keys.Nodup := by
    rw [keys_choiceEntries]
    decide
  refine ⟨sizeBlock twinOptions, valid, by decide +kernel, choiceEntries twinOptions,
    choiceEntries_mem_definition valid among (by decide), repeated, ?_⟩
  rwa [keepsValues_iff (unmixed_choiceEntries twinOptions)]

end Generate

end BlockForge
