/-
# Numbers of the generated definition

The numbers of a definition are the ranges of its sliders and the sizes of its titles. All of them
are read back from the class file as numerals, with one exception: a double that is not finite has
no numeral and is written as a bare word, which means a constant to PHP. No such double comes from
JSON, while TOML has words for all of them and no rule forbids them.
-/

import BlockForge.Proofs.Block.Accepted
import BlockForge.Proofs.Generate.ClassFile
import BlockForge.Proofs.Json.Numbers

namespace BlockForge.Code

/-! ## Signed numerals -/

/-- Whether a text is a numeral, possibly with a minus sign before it. -/
def isSignedNumeral : List Char → Bool
  | [] => false
  | c :: rest => if c = '-' then isNumeral rest else isNumeral (c :: rest)

/-- The words for the doubles that are not finite. -/
def nonFiniteWords : List (List Char) :=
  ["NaN".toList, "Infinity".toList, "-Infinity".toList]

def truthWords : List (List Char) := ["true".toList, "false".toList]

theorem isSignedNumeral_sign_append (negative : Bool) {text : List Char}
    (numeral : isNumeral text) : isSignedNumeral (signChars negative ++ text) := by
  cases negative with
  | true => exact numeral
  | false =>
      cases text with
      | nil => exact numeral
      | cons c rest =>
          have plain : c ≠ '-' := by
            rintro rfl
            cases numeral
          rwa [signChars, if_neg Bool.false_ne_true, List.nil_append, isSignedNumeral, if_neg plain]

theorem isSignedNumeral_intChars (i : Int) : isSignedNumeral (intChars i) :=
  isSignedNumeral_sign_append _ (isNumeral_natChars _)

/-- A finite double is written as a numeral, and every other one as a word. -/
theorem number_mem_nonFiniteWords_or (x : Binary64) :
    if x.isFinite then isSignedNumeral (number x) else number x ∈ nonFiniteWords := by
  cases x with
  | nan => decide
  | infinite negative => cases negative <;> decide
  | finite negative x =>
      rw [if_pos (by rfl), number]
      split
      · decide
      · rename_i positive
        exact isSignedNumeral_sign_append _
          (isNumeral_magnitudeChars (Bool.eq_false_iff.mpr positive))

theorem isSignedNumeral_number_iff {x : Binary64} :
    isSignedNumeral (number x) ↔ x.isFinite := by
  have written := number_mem_nonFiniteWords_or x
  split at written
  · rename_i finite
    exact iff_of_true written finite
  · rename_i other
    have words : ∀ word ∈ nonFiniteWords, ¬ isSignedNumeral word := by decide
    exact iff_of_false (words _ written) other

theorem number_notMem_truthWords (x : Binary64) : number x ∉ truthWords := by
  have numerals : ∀ word ∈ truthWords, ¬ isSignedNumeral word ∧ word ∉ nonFiniteWords := by decide
  intro truth
  have written := number_mem_nonFiniteWords_or x
  split at written
  · exact (numerals _ truth).1 written
  · exact (numerals _ truth).2 written

theorem intChars_notMem_truthWords (i : Int) : intChars i ∉ truthWords := by
  have numerals : ∀ word ∈ truthWords, ¬ isSignedNumeral word := by decide
  exact fun truth => numerals _ truth (isSignedNumeral_intChars i)

/-! ## Scalars -/

mutual

/-- The numbers and constants of a value, as they stand. -/
def Term.scalars : Term → List (List Char)
  | .scalar spelled => [spelled]
  | .joined left right => left.scalars ++ right.scalars
  | .array entries => entryScalars entries
  | _ => []

def entryScalars : TermEntries → List (List Char)
  | [] => []
  | (_, value) :: rest => value.scalars ++ entryScalars rest

end

/-- The numbers of a value, as they stand: its scalars other than the truth values. -/
def Term.numbers (term : Term) : List (List Char) :=
  term.scalars.filter fun spelled => !truthWords.contains spelled

mutual

theorem Term.scalars_mapTexts (change : List Char → List Char) :
    (term : Term) → (term.mapTexts change).scalars = term.scalars
  | .text _ => rfl
  | .localized _ => rfl
  | .scalar _ => rfl
  | .moduleName => rfl
  | .joined left right => by
      rw [Term.mapTexts, Term.scalars, Term.scalars, left.scalars_mapTexts change,
        right.scalars_mapTexts change]
  | .array entries => by
      rw [Term.mapTexts, Term.scalars, Term.scalars, entryScalars_mapEntryTexts change entries]

theorem entryScalars_mapEntryTexts (change : List Char → List Char) :
    (entries : TermEntries) → entryScalars (mapEntryTexts change entries) = entryScalars entries
  | [] => rfl
  | (key, value) :: rest => by
      rw [mapEntryTexts, entryScalars, entryScalars, value.scalars_mapTexts change,
        entryScalars_mapEntryTexts change rest]

end

theorem Term.numbers_mapTexts (change : List Char → List Char) (term : Term) :
    (term.mapTexts change).numbers = term.numbers := by
  rw [numbers, numbers, scalars_mapTexts]

def Entries.numbers (entries : Entries) : List (List Char) :=
  (Term.array (seenEntries entries)).numbers

namespace Literal

@[simp]
theorem numbers_seen_string (text : String) : (string text).seen.numbers = [] := rfl

@[simp]
theorem numbers_seen_localized (text : String) : (localized text).seen.numbers = [] := rfl

@[simp]
theorem numbers_seen_bool (value : Bool) : (bool value).seen.numbers = [] := by
  cases value <;> decide

@[simp]
theorem numbers_seen_number (x : Binary64) : (number x).seen.numbers = [Code.number x] := by
  have kept := number_notMem_truthWords x
  simp [seen, Term.numbers, Term.scalars, kept]

@[simp]
theorem numbers_seen_int (i : Int) : (int i).seen.numbers = [intChars i] := by
  have kept := intChars_notMem_truthWords i
  simp [seen, Term.numbers, Term.scalars, kept]

@[simp]
theorem numbers_seen_list (items : List String) : (list items).seen.numbers = [] := by
  have none : entryScalars (items.map fun item => (none, .text item.toList)) = [] := by
    induction items with
    | nil => rfl
    | cons item rest ih => exact ih
  rw [seen, Term.numbers, Term.scalars, none, List.filter_nil]

@[simp]
theorem numbers_seen_array (entries : Entries) : (array entries).seen.numbers = entries.numbers :=
  Term.numbers_mapTexts _ _

end Literal

namespace Entries

@[simp]
theorem numbers_nil : numbers [] = [] := rfl

@[simp]
theorem numbers_cons (key : Option String) (value : Literal) (rest : Entries) :
    numbers ((key, value) :: rest) = value.seen.numbers ++ numbers rest := by
  rw [numbers, Term.numbers, Term.scalars, seenEntries, entryScalars, List.filter_append]
  rfl

@[simp]
theorem numbers_append (entries back : Entries) :
    numbers (entries ++ back) = entries.numbers ++ back.numbers := by
  induction entries with
  | nil => rfl
  | cons first rest ih => rw [List.cons_append, numbers_cons, ih, numbers_cons, List.append_assoc]

theorem numbers_eq_nil {entries : Entries} (none : ∀ entry ∈ entries, entry.2.seen.numbers = []) :
    entries.numbers = [] := by
  induction entries with
  | nil => rfl
  | cons first rest ih =>
      obtain ⟨own, others⟩ := List.forall_mem_cons.mp none
      rw [numbers_cons, own, ih others, List.append_nil]

end Entries

end BlockForge.Code

namespace BlockForge

open BlockForge.Code

/-! ## The numbers of a definition -/

/-- The numbers of a kind, as they are written: the range of a slider and the size of a title. -/
def FieldKind.numerals : FieldKind → List (List Char)
  | .slider range =>
    (range.step.toList ++ range.least.toList ++ range.greatest.toList
      ++ range.default.toList).map number
  | .title (some heading) => [intChars heading.size]
  | _ => []

namespace Generate

open BlockForge.Code.Entries BlockForge.Json

theorem numbers_defaultText (default : Option String) : numbers (defaultText default) = [] := by
  cases default with
  | none => rfl
  | some text =>
      rw [defaultText]
      split <;> rfl

theorem numbers_choicesEntry (choices : Option (List Choice)) :
    numbers (choicesEntry choices) = [] := by
  match choices with
  | none => rfl
  | some [] => rfl
  | some (choice :: rest) =>
      have plain : numbers (choiceEntries (choice :: rest)) = [] := by
        refine numbers_eq_nil fun item held => ?_
        obtain ⟨option, -, rfl⟩ := List.mem_map.mp held
        rfl
      simp [choicesEntry, entry, plain]

theorem numbers_numberEntry (key : String) (x : Option Binary64) :
    numbers (numberEntry key x) = x.toList.map number := by
  cases x <;> simp [numberEntry, entry]

/-- What only one kind of field has writes the numbers of the kind. -/
theorem numbers_kindEntries (kind : FieldKind) : numbers (kindEntries kind) = kind.numerals := by
  cases kind with
  | text default => exact numbers_defaultText default
  | color default => exact numbers_defaultText default
  | textarea default => exact numbers_defaultText default
  | datepicker default => exact numbers_defaultText default
  | selector collection pattern => rfl
  | editor provider default => exact numbers_defaultText default
  | checkbox default => simp [kindEntries, entry, FieldKind.numerals]
  | slider range => simp [kindEntries, numbers_numberEntry, FieldKind.numerals]
  | select default choices =>
      rw [kindEntries, numbers_append, numbers_defaultText, numbers_choicesEntry]
      rfl
  | radioGroup default choices =>
      rw [kindEntries, numbers_append, numbers_defaultText, numbers_choicesEntry]
      rfl
  | multiselect default choices =>
      rcases default with _ | _ | ⟨value, rest⟩
      · exact numbers_choicesEntry choices
      · exact numbers_choicesEntry choices
      · simp [kindEntries, entry, numbers_choicesEntry, FieldKind.numerals]
  | title default =>
      cases default with
      | none => rfl
      | some title => simp [kindEntries, entry, titleEntries, FieldKind.numerals]
  | fileUpload path urls =>
      have plain : numbers (uploadItems urls) = [] := by
        refine numbers_eq_nil fun item held => ?_
        obtain ⟨url, -, rfl⟩ := List.mem_map.mp held
        rfl
      simp [kindEntries, entry, FieldKind.numerals, plain]

theorem numbers_fieldEntries (field : Field) :
    numbers (fieldEntries field) = field.kind.numerals := by
  have forced : numbers (if field.forceDefault = some true
      then [entry "force_default_value" (.bool true)] else []) = [] := by
    split
    · decide
    · rfl
  rw [fieldEntries, numbers_append, numbers_append, forced, numbers_kindEntries]
  rfl

theorem numbers_fieldsEntries (fields : List Field) :
    numbers (fieldsEntries fields) = fields.flatMap (·.kind.numerals) := by
  induction fields with
  | nil => rfl
  | cons field rest ih =>
      rw [List.flatMap_cons, ← ih, ← numbers_fieldEntries, fieldsEntries, List.map_cons, entry,
        numbers_cons, Literal.numbers_seen_array]
      rfl

theorem numbers_configEntry (fields : List Field) :
    numbers (configEntry fields) = fields.flatMap (·.kind.numerals) := by
  cases fields with
  | nil => rfl
  | cons first rest =>
      have inner := numbers_fieldsEntries (first :: rest)
      simp [configEntry, entry, inner]

theorem numbers_repeaterEntry (repeater : Option Repeater) :
    numbers (repeaterEntry repeater) =
      ((repeater.map Repeater.fields).getD []).flatMap (·.kind.numerals) := by
  cases repeater with
  | none => rfl
  | some repeater =>
      simp [repeaterEntry, repeaterEntries, entry, numbers_fieldsEntries]

theorem numbers_templatePath (template : String) :
    (Literal.expression (templatePath template)).seen.numbers = [] := by
  rw [Literal.seen, readSource_templatePath]
  rfl

/-- The numbers of a definition are those of the fields, in their order. -/
theorem numbers_definition {block : Description} (valid : block.issues = []) :
    numbers (definition block) = block.allFields.flatMap (·.kind.numerals) := by
  rw [definition, numbers_append, numbers_append, numbers_configEntry, numbers_repeaterEntry,
    activeRepeater_of_issues valid, Description.allFields, List.flatMap_append]
  simp [entry, numbers_templatePath]

/-! ## Numerals -/

/-- The numbers of a kind are written as numerals exactly if they are finite. -/
theorem isSignedNumeral_numerals_iff {kind : FieldKind} :
    (∀ numeral ∈ kind.numerals, isSignedNumeral numeral) ↔ ∀ x ∈ kind.numbers, x.isFinite := by
  cases kind with
  | slider range =>
      simp only [FieldKind.numerals, FieldKind.numbers, SliderRange.numbers, List.forall_mem_map,
        isSignedNumeral_number_iff, List.forall_mem_append]
      tauto
  | title default =>
      cases default <;> simp [FieldKind.numerals, FieldKind.numbers, isSignedNumeral_intChars]
  | _ => simp [FieldKind.numerals, FieldKind.numbers]

theorem isSignedNumeral_or_of_mem_numerals {kind : FieldKind} {numeral : List Char}
    (held : numeral ∈ kind.numerals) : isSignedNumeral numeral ∨ numeral ∈ nonFiniteWords := by
  cases kind with
  | slider range =>
      obtain ⟨x, -, rfl⟩ := List.mem_map.mp held
      have written := number_mem_nonFiniteWords_or x
      split at written
      · exact .inl written
      · exact .inr written
  | title default =>
      cases default with
      | none => cases held
      | some heading =>
          obtain rfl := List.mem_singleton.mp held
          exact .inl (isSignedNumeral_intChars _)
  | _ => cases held

/-- A description that was loaded breaks no rule, and its numbers are finite if it comes from
JSON. -/
theorem valid_of_ofText {format : Format} {text : String} {block : Description}
    (loaded : Description.ofText format text = .ok block) :
    block.issues = [] ∧ (format = .json → ∀ x ∈ block.numbers, x.isFinite) := by
  cases format with
  | json =>
      rw [Description.ofText, Description.ofJsonText] at loaded
      split at loaded
      · rename_i read found
        obtain ⟨rfl, valid⟩ := Description.eq_of_accepted loaded
        refine ⟨valid, fun _ x held => ?_⟩
        have fields := Block.readDescription_gives .text (Document.isJson_root text.toList) read
          (readText_eq_ok.mp found).1
        obtain ⟨field, among, own⟩ := List.mem_flatMap.mp held
        exact (fields field among).2 x own
      · cases loaded
  | toml =>
      rw [Description.ofText, Description.ofTomlText] at loaded
      split at loaded
      · cases loaded
      · split at loaded
        · exact ⟨(Description.eq_of_accepted loaded).2, fun other => by cases other⟩
        · split at loaded <;> cases loaded

theorem exists_read_of_issues {block : Description} (valid : block.issues = []) :
    ∃ read, returnedArray (classText block).toList = some read ∧
      read.numbers = block.allFields.flatMap (·.kind.numerals) := by
  refine ⟨(Term.array (seenEntries (definition block))).displace definitionColumns, ?_, ?_⟩
  · rw [toList_classText]
    exact returnedArray_layout (checked_of_issues valid).blockName (readable_definition block)
  · exact (Term.numbers_mapTexts _ _).trans (numbers_definition valid)

/-- The numbers that are read from the class file of a description are those of its fields. Each of
them is a numeral or one of three words, and there is no such word exactly if the ranges of the
sliders are finite, which they always are where the description was loaded from JSON. -/
theorem numbers_of_classText {format : Format} {text : String} {block : Description}
    (loaded : Description.ofText format text = .ok block) :
    ∃ read, returnedArray (classText block).toList = some read ∧
      read.numbers = block.allFields.flatMap (·.kind.numerals) ∧
      (∀ numeral ∈ read.numbers, isSignedNumeral numeral ∨ numeral ∈ nonFiniteWords) ∧
      ((∀ numeral ∈ read.numbers, isSignedNumeral numeral) ↔ ∀ x ∈ block.numbers, x.isFinite) ∧
      (format = .json → ∀ numeral ∈ read.numbers, isSignedNumeral numeral) := by
  obtain ⟨valid, finite⟩ := valid_of_ofText loaded
  obtain ⟨read, returned, numbers⟩ := exists_read_of_issues valid
  have signed_iff : (∀ numeral ∈ read.numbers, isSignedNumeral numeral) ↔
      ∀ x ∈ block.numbers, x.isFinite := by
    simp only [numbers, Description.numbers, List.forall_mem_flatMap, isSignedNumeral_numerals_iff]
  refine ⟨read, returned, numbers, fun numeral held => ?_, signed_iff,
    fun json => signed_iff.mpr (finite json)⟩
  rw [numbers] at held
  obtain ⟨field, -, own⟩ := List.mem_flatMap.mp held
  exact isSignedNumeral_or_of_mem_numerals own

/-- A description in TOML of a block with one slider. -/
def dialText (most : String) : String :=
  "blockName=\"Dial\"\ntplFilename=\"dial.tpl\"\ncode=\"cpb_dial\"\nnameLabel=\"Dial\"\n"
    ++ "description=\"Dial\"\nhasRepeater=false\n"
    ++ "fields=[\x7btype=\"slider\",name=\"turn\",label=\"Turn\",max=" ++ most ++ "\x7d]"

def dialBlock (most : Binary64) : Description where
  blockName := "Dial"
  template := "dial.tpl"
  code := "cpb_dial"
  displayName := "Dial"
  about := "Dial"
  tab := Description.defaultTab
  icon := Description.defaultIcon
  hasRepeater := false
  fields := [⟨"turn", "Turn", none, .slider ⟨none, none, none, some most⟩⟩]
  repeater := none

theorem ofText_of_toOption {text : String} {block : Description}
    (loaded : (Description.ofTomlText text).toOption = some block) :
    Description.ofText .toml text = .ok block := by
  rw [Description.ofText, eq_ok_of_toOption loaded]

theorem numbers_of_classText_dial :
    ∃ read, returnedArray (classText (dialBlock (.ofInt 100))).toList = some read ∧
      read.numbers = [['1', '0', '0']] := by
  have loaded : Description.ofText .toml (dialText "100") = .ok (dialBlock (.ofInt 100)) :=
    ofText_of_toOption (by decide +kernel)
  obtain ⟨read, returned, numbers, -⟩ := numbers_of_classText loaded
  refine ⟨read, returned, numbers.trans ?_⟩
  decide +kernel

/-- A slider may be said to have no end in TOML, and its end is written as a word then. -/
theorem exists_bare_word :
    ∃ text block read, Description.ofText .toml text = .ok block ∧
      returnedArray (classText block).toList = some read ∧
      ∃ word ∈ read.numbers, ¬ isSignedNumeral word := by
  have loaded : Description.ofText .toml (dialText "inf") =
      .ok (dialBlock (.infinite false)) := ofText_of_toOption (by decide +kernel)
  have valid : (dialBlock (.infinite false)).issues = [] := by decide +kernel
  obtain ⟨read, returned, numbers⟩ := exists_read_of_issues valid
  refine ⟨_, _, read, loaded, returned, number (.infinite false), ?_, by decide⟩
  rw [numbers]
  exact List.mem_singleton_self _

end Generate

end BlockForge
