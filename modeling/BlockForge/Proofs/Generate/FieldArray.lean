/-
# What the array of a field tells

The array of a field leaves out what is empty like what is not there, and for a checkbox, an
upload and an editor it writes a default where none is given. So different fields may have one
array. The normal form of a field makes these choices beforehand: what is not told apart in the
array is the same in the normal form.

Nothing else is lost. The normal form of a field is read back from its array, entry by entry under
the key that each attribute has, and so two fields have one array exactly if they have one normal
form, apart from their names. The numbers of a slider and the default of a title are never left
out.
-/

import BlockForge.Generate.FieldArray

namespace BlockForge

variable {α : Type}

/-! ## Normal forms -/

/-- A default text, where an empty one counts as none. -/
def normalText (default : Option String) : Option String := default.filter (· ≠ "")

/-- A list, where an empty one counts as none. -/
def normalList (items : Option (List α)) : Option (List α) := items.filter (!·.isEmpty)

def Choice.normal (choice : Choice) : Choice := .labeled choice.id choice.label

/-- The options of a field, of which no options count as none. -/
def normalChoices (choices : Option (List Choice)) : Option (List Choice) :=
  normalList (choices.map (·.map Choice.normal))

/-- A kind with what is written for it where nothing is given, and without what is empty. -/
def FieldKind.normal : FieldKind → FieldKind
  | text default => text (normalText default)
  | color default => color (normalText default)
  | textarea default => textarea (normalText default)
  | fileUpload path urls =>
    fileUpload (some (path.getD Generate.defaultUploadPath)) (some ((normalList urls).getD [""]))
  | selector collection pattern => selector collection pattern
  | editor provider default => editor (some (provider.getD .vuequill)) (normalText default)
  | checkbox default => checkbox (some (default.getD false))
  | select default choices => select (normalText default) (normalChoices choices)
  | radioGroup default choices => radioGroup (normalText default) (normalChoices choices)
  | multiselect default choices => multiselect (normalList default) (normalChoices choices)
  | title default => title default
  | slider range => slider range
  | datepicker default => datepicker (normalText default)

/-- A field whose default is forced or not, with its kind in normal form. -/
def Field.normal (field : Field) : Field :=
  { field with forceDefault := some (field.forceDefault.getD false), kind := field.kind.normal }

end BlockForge

namespace BlockForge.Generate

open BlockForge.Code

/-! ## Entries under their keys -/

variable {key other : String} {value : Literal} {front back rest entries : Entries}

theorem get?_cons_self (key : String) (value : Literal) (rest : Entries) :
    Entries.get? (entry key value :: rest) key = some value := by
  simp [Entries.get?, entry]

theorem get?_cons_of_ne (differs : other ≠ key) :
    Entries.get? (entry other value :: rest) key = Entries.get? rest key := by
  simp [Entries.get?, entry, differs]

theorem get?_nil (key : String) : Entries.get? [] key = none := rfl

theorem get?_append : Entries.get? (front ++ back) key =
    (Entries.get? front key).or (Entries.get? back key) := by
  rw [Entries.get?, Entries.get?, Entries.get?, List.find?_append]
  cases front.find? (·.1 == some key) <;> rfl

theorem get?_defaultText (default : Option String) :
    Entries.get? (defaultText default) "default" = (normalText default).map .string := by
  cases default with
  | none => rfl
  | some text =>
      by_cases empty : text = ""
      · rw [empty]
        rfl
      · simp [empty, defaultText, normalText, Entries.get?, entry, Option.filter]

theorem get?_defaultText_of_ne (default : Option String) (differs : key ≠ "default") :
    Entries.get? (defaultText default) key = none := by
  cases default with
  | none => rfl
  | some text =>
      rw [defaultText]
      split
      · rfl
      · exact get?_cons_of_ne differs.symm

def defaultTexts (default : Option (List String)) : Entries :=
  ((normalList default).map fun values => entry "default" (.list values)).toList

theorem kindEntries_multiselect (default : Option (List String)) (choices : Option (List Choice)) :
    kindEntries (.multiselect default choices) = defaultTexts default ++ choicesEntry choices := by
  match default with
  | none => rfl
  | some [] => rfl
  | some (value :: rest) => rfl

theorem get?_defaultTexts (default : Option (List String)) :
    Entries.get? (defaultTexts default) "default" = (normalList default).map .list := by
  rw [defaultTexts]
  cases normalList default with
  | none => rfl
  | some values => exact get?_cons_self _ _ _

theorem get?_defaultTexts_of_ne (default : Option (List String)) (differs : key ≠ "default") :
    Entries.get? (defaultTexts default) key = none := by
  rw [defaultTexts]
  cases normalList default with
  | none => rfl
  | some values => exact get?_cons_of_ne differs.symm

theorem get?_choicesEntry (choices : Option (List Choice)) :
    Entries.get? (choicesEntry choices) "choices" =
      (normalList choices).map fun choices => .array (choiceEntries choices) := by
  match choices with
  | none => rfl
  | some [] => rfl
  | some (choice :: rest) => exact get?_cons_self _ _ _

theorem get?_choicesEntry_of_ne (choices : Option (List Choice)) (differs : key ≠ "choices") :
    Entries.get? (choicesEntry choices) key = none := by
  match choices with
  | none => rfl
  | some [] => rfl
  | some (choice :: rest) => exact get?_cons_of_ne differs.symm

theorem get?_numberEntry (key : String) (number : Option Binary64) :
    Entries.get? (numberEntry key number) key = number.map .number := by
  cases number with
  | none => rfl
  | some x => exact get?_cons_self _ _ _

theorem get?_numberEntry_of_ne (number : Option Binary64) (differs : other ≠ key) :
    Entries.get? (numberEntry other number) key = none := by
  cases number with
  | none => rfl
  | some x => exact get?_cons_of_ne differs

/-! ## Reading an array -/

def textOf? : Literal → Option String
  | .string text => some text
  | _ => none

def truthOf? : Literal → Option Bool
  | .bool value => some value
  | _ => none

def integerOf? : Literal → Option Int
  | .int value => some value
  | _ => none

def numberOf? : Literal → Option Binary64
  | .number value => some value
  | _ => none

def editorOf? : Literal → Option EditorProvider
  | .string "vuequill" => some .vuequill
  | _ => none

def textsOf? : Literal → Option (List String)
  | .list items => some items
  | _ => none

/-- The option that an entry is written for. -/
def choiceOf? : Option String × Literal → Option Choice
  | (some id, .string label) => some (.labeled id label)
  | _ => none

/-- The options that an array is written for. -/
def choicesOf? : Literal → Option (List Choice)
  | .array entries => entries.mapM choiceOf?
  | _ => none

/-- The file that an item of an upload is written for. -/
def urlOf? : Option String × Literal → Option String
  | (none, .inline [(some "url", .string url)]) => some url
  | _ => none

/-- The files that the default of an upload is written for. -/
def urlsOf? : Literal → Option (List String)
  | .array items => items.mapM urlOf?
  | _ => none

def titleOf? : Literal → Option TitleDefault
  | .array entries => do
    return {
      tag := ← (Entries.get? entries "tag").bind textOf?
      classes := ← (Entries.get? entries "classes").bind textsOf?
      value := ← (Entries.get? entries "value").bind textOf?
      focus := ← (Entries.get? entries "focus").bind truthOf?
      bold := ← (Entries.get? entries "bold").bind truthOf?
      italic := ← (Entries.get? entries "italic").bind truthOf?
      underline := ← (Entries.get? entries "underline").bind truthOf?
      size := ← (Entries.get? entries "size").bind integerOf? }
  | _ => none

/-- The numbers of a slider whose entries are given. -/
def rangeOf (entries : Entries) : SliderRange where
  default := (entries.get? "default").bind numberOf?
  step := (entries.get? "step").bind numberOf?
  least := (entries.get? "min").bind numberOf?
  greatest := (entries.get? "max").bind numberOf?

def kindOf? (entries : Entries) (name : String) : Option FieldKind :=
  let text := (entries.get? "default").bind textOf?
  let choices := (entries.get? "choices").bind choicesOf?
  match name with
  | "text" => some (.text text)
  | "color" => some (.color text)
  | "textarea" => some (.textarea text)
  | "fileupload" => some (.fileUpload ((entries.get? "path").bind textOf?)
      ((entries.get? "default").bind urlsOf?))
  | "selector" => do
    return .selector (← (entries.get? "collection").bind textOf?)
      (← (entries.get? "selector").bind textOf?)
  | "editor" => some (.editor ((entries.get? "provider").bind editorOf?) text)
  | "checkbox" => some (.checkbox ((entries.get? "default").bind truthOf?))
  | "select" => some (.select text choices)
  | "radio_group" => some (.radioGroup text choices)
  | "multiselect" => some (.multiselect ((entries.get? "default").bind textsOf?) choices)
  | "title" => some (.title ((entries.get? "default").bind titleOf?))
  | "slider" => some (.slider (rangeOf entries))
  | "datepicker" => some (.datepicker text)
  | _ => none

def fieldOf? (name : String) (entries : Entries) : Option Field := do
  let .localized label ← entries.get? "label" | none
  let kindName ← (entries.get? "type").bind textOf?
  return {
    name := name
    label := label
    forceDefault := some (entries.get? "force_default_value").isSome
    kind := ← kindOf? entries kindName }

/-! ## Each kind is read back -/

theorem bind_textOf?_map (text : Option String) : (text.map Literal.string).bind textOf? = text := by
  cases text <;> rfl

theorem bind_numberOf?_map (number : Option Binary64) :
    (number.map Literal.number).bind numberOf? = number := by
  cases number <;> rfl

theorem bind_textsOf?_map (texts : Option (List String)) :
    (texts.map Literal.list).bind textsOf? = texts := by
  cases texts <;> rfl

theorem choicesOf?_choiceEntries (choices : List Choice) :
    choicesOf? (.array (choiceEntries choices)) = some (choices.map Choice.normal) := by
  rw [choicesOf?, choiceEntries]
  induction choices with
  | nil => rfl
  | cons choice rest ih =>
      rw [List.map_cons, List.mapM_cons, ih]
      rfl

theorem bind_choicesOf?_map (choices : Option (List Choice)) :
    ((normalList choices).map fun choices => Literal.array (choiceEntries choices)).bind choicesOf? =
      normalChoices choices := by
  match choices with
  | none => rfl
  | some [] => rfl
  | some (choice :: rest) => exact choicesOf?_choiceEntries (choice :: rest)

theorem urlsOf?_uploadItems (urls : Option (List String)) :
    urlsOf? (.array (uploadItems urls)) = some ((normalList urls).getD [""]) := by
  have each (urls : List String) : urlsOf? (.array (urls.map fun url =>
      (none, .inline [entry "url" (.string url)]))) = some urls := by
    rw [urlsOf?]
    induction urls with
    | nil => rfl
    | cons url rest ih =>
        rw [List.map_cons, List.mapM_cons, ih]
        rfl
  match urls with
  | none => exact each [""]
  | some [] => exact each [""]
  | some (url :: rest) => exact each (url :: rest)

theorem titleOf?_titleEntries (title : TitleDefault) :
    titleOf? (.array (titleEntries title)) = some title := by
  rfl

/-- A default that is left out where it is empty, and options behind it, are both found. -/
theorem get?_withChoices {default : Entries} (own : ∀ key ≠ "default", default.get? key = none)
    (choices : Option (List Choice)) :
    Entries.get? (default ++ choicesEntry choices) "default" = default.get? "default" ∧
      Entries.get? (default ++ choicesEntry choices) "choices" =
        (normalList choices).map fun choices => .array (choiceEntries choices) := by
  rw [get?_append, get?_append, get?_choicesEntry, get?_choicesEntry_of_ne choices (by decide),
    own "choices" (by decide)]
  exact ⟨Option.or_none, Option.none_or⟩

/-- Every number of a slider is found under its key, and nothing where there is none. -/
theorem get?_slider (range : SliderRange) :
    Entries.get? (kindEntries (.slider range)) "step" = range.step.map .number ∧
      Entries.get? (kindEntries (.slider range)) "min" = range.least.map .number ∧
      Entries.get? (kindEntries (.slider range)) "max" = range.greatest.map .number ∧
      Entries.get? (kindEntries (.slider range)) "default" = range.default.map .number := by
  simp [kindEntries, get?_append, get?_numberEntry, get?_numberEntry_of_ne]

/-- The kind of a field is read back from entries among which its own are found. -/
theorem kindOf?_of_reads {kind : FieldKind}
    (reads : ∀ key ∉ ["type", "label", "force_default_value"],
      entries.get? key = Entries.get? (kindEntries kind) key) :
    kindOf? entries kind.name = some kind.normal := by
  have default := reads "default" (by decide)
  have choices := reads "choices" (by decide)
  cases kind with
  | text text | color text | textarea text | datepicker text =>
      simp only [kindOf?, FieldKind.name, default, kindEntries, get?_defaultText,
        bind_textOf?_map, FieldKind.normal]
  | fileUpload path urls =>
      have directory := reads "path" (by decide)
      simp [kindOf?, FieldKind.name, default, directory, kindEntries, get?_cons_self,
        get?_cons_of_ne, urlsOf?_uploadItems, textOf?, FieldKind.normal]
  | selector collection pattern =>
      have collected := reads "collection" (by decide)
      have shown := reads "selector" (by decide)
      simp [kindOf?, FieldKind.name, collected, shown, kindEntries, get?_cons_self,
        get?_cons_of_ne, textOf?, FieldKind.normal]
  | editor provider text =>
      have named := reads "provider" (by decide)
      simp [kindOf?, FieldKind.name, default, named, kindEntries, get?_cons_self, get?_cons_of_ne,
        get?_defaultText, bind_textOf?_map, EditorProvider.name, editorOf?, FieldKind.normal]
  | checkbox value =>
      simp only [kindOf?, FieldKind.name, default, kindEntries, get?_cons_self, Option.bind_some,
        truthOf?, FieldKind.normal]
  | select text items | radioGroup text items =>
      have own (key : String) (differs : key ≠ "default") := get?_defaultText_of_ne text differs
      obtain ⟨first, second⟩ := get?_withChoices own items
      simp only [kindOf?, FieldKind.name, default, choices, kindEntries, first, second,
        get?_defaultText, bind_textOf?_map, bind_choicesOf?_map, FieldKind.normal]
  | multiselect texts items =>
      have own (key : String) (differs : key ≠ "default") := get?_defaultTexts_of_ne texts differs
      obtain ⟨first, second⟩ := get?_withChoices own items
      simp only [kindOf?, FieldKind.name, default, choices, kindEntries_multiselect, first, second,
        get?_defaultTexts, bind_textsOf?_map, bind_choicesOf?_map, FieldKind.normal]
  | title title =>
      cases title with
      | none =>
          simp only [kindOf?, FieldKind.name, default, kindEntries, get?_nil, Option.bind_none,
            FieldKind.normal]
      | some title =>
          simp only [kindOf?, FieldKind.name, default, kindEntries, get?_cons_self,
            Option.bind_some, titleOf?_titleEntries, FieldKind.normal]
  | slider range =>
      obtain ⟨step, least, greatest, position⟩ := get?_slider range
      have eachOf : rangeOf entries = range := by
        rw [rangeOf, reads "step" (by decide), reads "min" (by decide), reads "max" (by decide),
          default, step, least, greatest, position]
        simp only [bind_numberOf?_map]
      simp only [kindOf?, FieldKind.name, eachOf, FieldKind.normal]

/-! ## Fields -/

/-- Behind kind, label and forced default, an array has what only its kind has. -/
theorem get?_fieldEntries (field : Field) {key : String}
    (own : key ∉ ["type", "label", "force_default_value"]) :
    Entries.get? (fieldEntries field) key = Entries.get? (kindEntries field.kind) key := by
  simp only [List.mem_cons, List.not_mem_nil, or_false, not_or] at own
  obtain ⟨notKind, notLabel, notForced⟩ := own
  rw [fieldEntries, List.append_assoc, List.cons_append, List.cons_append, List.nil_append,
    get?_cons_of_ne (Ne.symm notKind), get?_cons_of_ne (Ne.symm notLabel), get?_append]
  split
  · rw [get?_cons_of_ne (Ne.symm notForced), get?_nil, Option.none_or]
  · rw [get?_nil, Option.none_or]

/-- No kind has an entry of its own that says whether the default is forced. -/
theorem get?_kindEntries_forced (kind : FieldKind) :
    Entries.get? (kindEntries kind) "force_default_value" = none := by
  cases kind with
  | multiselect texts choices =>
      rw [kindEntries_multiselect, get?_append, get?_defaultTexts_of_ne texts (by decide),
        get?_choicesEntry_of_ne choices (by decide), Option.or_none]
  | title title => cases title <;> rfl
  | fileUpload | selector | checkbox => rfl
  | _ =>
      simp [kindEntries, get?_append, get?_defaultText_of_ne, get?_choicesEntry_of_ne,
        get?_numberEntry_of_ne, get?_cons_of_ne]

theorem isSome_get?_forced (field : Field) :
    (Entries.get? (fieldEntries field) "force_default_value").isSome =
      field.forceDefault.getD false := by
  rw [fieldEntries, List.append_assoc, List.cons_append, List.cons_append, List.nil_append,
    get?_cons_of_ne (by decide), get?_cons_of_ne (by decide), get?_append,
    get?_kindEntries_forced, Option.or_none]
  cases field.forceDefault with
  | none => rfl
  | some forced => cases forced <;> rfl

/-- The normal form of a field is read back from its array, under whatever name. -/
theorem fieldOf?_fieldEntries (name : String) (field : Field) :
    fieldOf? name (fieldEntries field) = some { field.normal with name := name } := by
  have kind : kindOf? (fieldEntries field) field.kind.name = some field.kind.normal :=
    kindOf?_of_reads fun _ own => get?_fieldEntries field own
  have label : Entries.get? (fieldEntries field) "label" = some (.localized field.label) := rfl
  have named : Entries.get? (fieldEntries field) "type" = some (.string field.kind.name) := rfl
  rw [fieldOf?, label, named, isSome_get?_forced]
  show (kindOf? (fieldEntries field) field.kind.name).bind _ = _
  rw [kind]
  rfl

/-! ## Normal forms have the same array -/

theorem defaultText_normalText (default : Option String) :
    defaultText (normalText default) = defaultText default := by
  cases default with
  | none => rfl
  | some text =>
      by_cases empty : text = ""
      · rw [empty]
        rfl
      · simp [normalText, Option.filter, empty]

theorem normalList_normalList {α : Type} (items : Option (List α)) :
    normalList (normalList items) = normalList items := by
  match items with
  | none => rfl
  | some [] => rfl
  | some (item :: rest) => rfl

theorem choicesEntry_normalChoices (choices : Option (List Choice)) :
    choicesEntry (normalChoices choices) = choicesEntry choices := by
  match choices with
  | none => rfl
  | some [] => rfl
  | some (choice :: rest) =>
      have same : choiceEntries ((choice :: rest).map Choice.normal) =
          choiceEntries (choice :: rest) := by
        rw [choiceEntries, choiceEntries, List.map_map]
        rfl
      exact congrArg (fun entries => [entry "choices" (.array entries)]) same

theorem uploadItems_normalList (urls : Option (List String)) :
    uploadItems (some ((normalList urls).getD [""])) = uploadItems urls := by
  match urls with
  | none => rfl
  | some [] => rfl
  | some (url :: rest) => rfl

/-- A kind is written like its normal form. -/
theorem kindEntries_normal (kind : FieldKind) : kindEntries kind.normal = kindEntries kind := by
  cases kind with
  | multiselect texts choices =>
      rw [FieldKind.normal, kindEntries_multiselect, kindEntries_multiselect, defaultTexts,
        normalList_normalList, choicesEntry_normalChoices, ← defaultTexts]
  | fileUpload path urls =>
      rw [FieldKind.normal, kindEntries, kindEntries, uploadItems_normalList, Option.getD_some]
  | selector | editor | checkbox | title | slider =>
      simp only [FieldKind.normal, kindEntries, Option.getD_some, defaultText_normalText]
  | _ =>
      simp only [FieldKind.normal, kindEntries, defaultText_normalText, choicesEntry_normalChoices]

theorem name_normal (kind : FieldKind) : kind.normal.name = kind.name := by
  cases kind <;> rfl

/-- A field is written like its normal form. -/
theorem fieldEntries_normal (field : Field) : fieldEntries field.normal = fieldEntries field := by
  rw [fieldEntries, fieldEntries, Field.normal, kindEntries_normal, name_normal]
  cases field.forceDefault with
  | none => rfl
  | some forced => rfl

/-- Two fields have one array exactly if they have one normal form, apart from their names. The
numbers of a slider and the default of a title have their entries wherever they are there. -/
theorem fieldEntries_eq_iff (first second : Field) :
    (fieldEntries first = fieldEntries second ↔
      { first.normal with name := second.name } = second.normal) ∧
    (∀ name label forced range,
      let entries := fieldEntries ⟨name, label, forced, .slider range⟩
      Entries.get? entries "step" = range.step.map .number ∧
        Entries.get? entries "min" = range.least.map .number ∧
        Entries.get? entries "max" = range.greatest.map .number ∧
        Entries.get? entries "default" = range.default.map .number) ∧
    ∀ name label forced title,
      Entries.get? (fieldEntries ⟨name, label, forced, .title (some title)⟩) "default" =
        some (.array (titleEntries title)) := by
  refine ⟨⟨?_, ?_⟩, ?_, ?_⟩
  · intro same
    have readFirst := fieldOf?_fieldEntries second.name first
    rw [same, fieldOf?_fieldEntries] at readFirst
    exact (Option.some.inj readFirst).symm
  · intro same
    have written := congrArg fieldEntries same
    rw [fieldEntries_normal] at written
    exact (fieldEntries_normal first).symm.trans written
  · intro name label forced range entries
    have own (key : String) (other : key ∉ ["type", "label", "force_default_value"]) :
        Entries.get? entries key = Entries.get? (kindEntries (.slider range)) key :=
      get?_fieldEntries ⟨name, label, forced, .slider range⟩ other
    rw [own "step" (by decide), own "min" (by decide), own "max" (by decide),
      own "default" (by decide)]
    exact get?_slider range
  · intro name label forced title
    rw [get?_fieldEntries _ (by decide)]
    exact get?_cons_self _ _ _

end BlockForge.Generate
