/-
# Reading a class file

The class file of a block holds one array literal, between `return [` and `];`. Reading it
as PHP does gives the array that the definition of the block denotes, with the same keys,
entries and numbers at every level. The template is the one expression in it, which runs
two literals and the name of the module together.

The texts are those of the definition except for line breaks. The array is moved to the
right after its literals were written, so a text that holds a newline is read with spaces
behind it, and the whole array is the one that was meant exactly if no text does.
-/

import BlockForge.Block.Loading
import BlockForge.Generate.Definition
import BlockForge.Proofs.Code.Rendering

namespace BlockForge.Generate

open BlockForge.Code BlockForge.Text

/-- What follows the first place where a mark stands. -/
def behind? (mark : List Char) : List Char → Option (List Char)
  | [] => none
  | c :: rest =>
    match mark.isPrefixOf? (c :: rest) with
    | some after => some after
    | none => behind? mark rest

/-- The array that a source text returns: what stands between `return [` and `];`. -/
def returnedArray (file : List Char) : Option Term :=
  let array := (behind? "return [".toList file).map ('[' :: ·)
  match (array.bind tokens?).bind readValue with
  | some (value, .plain [';'] :: _) => some value
  | _ => none

/-- A mark is found where it stands if its last character stands nowhere before. -/
theorem behind?_append {before stem : List Char} {last : Char} (outside : last ∉ before)
    (inner : last ∉ stem) (rest : List Char) :
    behind? (stem ++ [last]) (before ++ (stem ++ last :: rest)) = some rest := by
  have found : (stem ++ [last]).isPrefixOf? (stem ++ last :: rest) = some rest := by
    rw [List.isPrefixOf?_eq_some_iff_append_eq, List.append_assoc, List.singleton_append]
  induction before with
  | nil =>
      rw [List.nil_append]
      cases whole : stem ++ last :: rest with
      | nil => simp at whole
      | cons c others =>
          rw [whole] at found
          rw [behind?, found]
  | cons c before ih =>
      have absent : (stem ++ [last]).isPrefixOf? (c :: (before ++ (stem ++ last :: rest))) =
          none := by
        rw [Option.eq_none_iff_forall_ne_some]
        intro after stands
        rw [List.isPrefixOf?_eq_some_iff_append_eq, List.append_assoc, List.singleton_append,
          ← List.append_assoc before, ← List.cons_append] at stands
        have outer : last ∉ c :: (before ++ stem) := by
          rw [← List.cons_append]
          exact List.not_mem_append outside inner
        have same := congrArg (List.takeWhile (· != last)) stands
        rw [Text.takeWhile_eq_front inner, Text.takeWhile_eq_front outer] at same
        have lengths := congrArg List.length same
        simp only [List.length_append, List.length_cons] at lengths
        omega
      rw [List.cons_append, behind?, absent]
      exact ih fun mem => outside (List.mem_cons_of_mem c mem)

/-! ## The layout of a class file -/

def preamble : List Char :=
  (runSteps classColumns
    [line "<?php", .apply (fileComment.map line), line ("namespace " ++ classNamespace ++ ";"),
      .blank] 0).1

def methodHead : List Char :=
  "\x7b\n    public function getDefinition(): array\n    \x7b\n        ".toList

def classHead (className : String) : List Char :=
  preamble ++ (("class " ++ className ++ " extends AbstractBlock").toList ++ '\n' :: methodHead)

def classTail : List Char := ";\n    \x7d\n\x7d\n".toList

/-- The columns by which the array of a definition is moved. -/
def definitionColumns : Nat := 3 * classColumns

/-- A class file is fixed text around the name of the class and the moved array. -/
theorem layout_classSteps (block : Description) :
    layout classColumns (classSteps block) =
      classHead block.className ++ ("return ".toList ++
        '[' :: '\n' :: (indent definitionColumns (Entries.render (definition block)) ++
          '\n' :: (List.replicate 8 ' ' ++ ']' :: classTail))) := by
  have level : (runSteps 4 (fileComment.map line) 0).2 = 0 := by decide
  have opens (rest : List Char) : lineAt 4 0 "\x7b".toList ++
      (lineAt 4 1 "public function getDefinition(): array".toList ++
        (lineAt 4 1 "\x7b".toList ++ (lineAt 4 2 "return [".toList ++ rest))) =
      methodHead ++ ("return ".toList ++ '[' :: '\n' :: rest) := by
    have fixed : lineAt 4 0 "\x7b".toList ++
        (lineAt 4 1 "public function getDefinition(): array".toList ++
          (lineAt 4 1 "\x7b".toList ++ lineAt 4 2 "return [".toList)) =
        methodHead ++ ("return ".toList ++ ['[', '\n']) := by
      decide
    simpa using congrArg (· ++ rest) fixed
  have closes : lineAt 4 2 "];".toList ++ (lineAt 4 1 "\x7d".toList ++ lineAt 4 0 "\x7d".toList) =
      List.replicate 8 ' ' ++ ']' :: classTail := by
    decide
  simp only [layout, classSteps, runSteps, Step.run, line, enclosed, classColumns, flatMap_lineAt,
    preamble, level, List.append_assoc, classHead, List.nil_append, List.append_nil, Nat.zero_add,
    Nat.reduceAdd, Nat.reduceSub, Nat.reduceMul, opens, closes, definitionColumns,
    lineAt_zero 4 ("class " ++ block.className ++ " extends AbstractBlock").toList,
    List.cons_append]

/-- The name of a class is letters and digits. -/
theorem isAlphanum_className {block : Description}
    (pascal : isPascalName block.blockName.toList) :
    block.className.toList.all Char.isAlphanum := by
  have letters : "Block".toList.all Char.isAlphanum := by decide
  rw [Description.className, String.toList_append, List.all_append, letters, Bool.and_true]
  cases named : block.blockName.toList with
  | nil => rfl
  | cons first rest =>
      rw [named, isPascalName, Bool.and_eq_true] at pascal
      obtain ⟨upper, others⟩ := pascal
      rw [List.all_cons, Bool.and_eq_true]
      refine ⟨?_, others⟩
      show ((first.isUpper || first.isLower) || first.isDigit) = true
      rw [upper]
      rfl

/-- Whether a character opens neither an array nor a literal. -/
def opensNothing (c : Char) : Bool := c != '[' && c != '\''

theorem opensNothing_of_isAlphanum {c : Char} (letter : c.isAlphanum) : opensNothing c := by
  rw [opensNothing, Bool.and_eq_true, bne_iff_ne, bne_iff_ne]
  exact ⟨Text.ne_of_kind letter rfl, Text.ne_of_kind letter rfl⟩

/-- No bracket and no quote stands before the array. -/
theorem opensNothing_classHead {className : String}
    (letters : className.toList.all Char.isAlphanum) :
    (classHead className ++ "return ".toList).all opensNothing := by
  have opens : preamble.all opensNothing := by decide +kernel
  have fixed : ("class ".toList ++ " extends AbstractBlock".toList ++ '\n' :: methodHead ++
      "return ".toList).all opensNothing := by
    decide
  have named : className.toList.all opensNothing := by
    rw [List.all_eq_true] at letters ⊢
    exact fun c mem => opensNothing_of_isAlphanum (letters c mem)
  simp only [classHead, String.toList_append, List.all_append, Bool.and_eq_true] at fixed ⊢
  obtain ⟨⟨⟨header, parent⟩, method⟩, returns⟩ := fixed
  exact ⟨⟨opens, ⟨⟨header, named⟩, parent⟩, method⟩, returns⟩

theorem notMem_of_opensNothing {source : List Char} (plain : source.all opensNothing) {c : Char}
    (opens : opensNothing c = false) : c ∉ source := by
  intro mem
  rw [List.all_eq_true.mp plain c mem] at opens
  cases opens

/-- The array of a class file is the one that is seen in its definition, moved with it. -/
theorem returnedArray_layout {block : Description}
    (pascal : isPascalName block.blockName.toList)
    (readable : Readable (entrySources (definition block))) :
    returnedArray (layout classColumns (classSteps block)) =
      some ((Term.array (seenEntries (definition block))).displace definitionColumns) := by
  have plain := opensNothing_classHead (isAlphanum_className pascal)
  have outside : '[' ∉ classHead block.className ++ "return ".toList :=
    notMem_of_opensNothing plain rfl
  rw [List.mem_append, not_or] at outside
  obtain ⟨tokens, scanned, reads⟩ :=
    readValue_of_readsBody (readsBody_lines (definition block) readable)
  obtain ⟨later, scannedTail⟩ : ∃ later, tokens? classTail = some (.plain [';'] :: later) := by
    refine ⟨[.plain ['\x7d'], .plain ['\x7d']], ?_⟩
    rw [tokens?, lexemes_of_no_quote (by decide)]
    rfl
  have found := behind?_append outside.1 outside.2
    ('\n' :: (indent definitionColumns (Entries.render (definition block)) ++
      '\n' :: (List.replicate 8 ' ' ++ ']' :: classTail)))
  have nested := tokens?_nested scanned definitionColumns (List.replicate 8 ' ') (by decide)
    classTail
  rw [scannedTail, Option.map_some, ← Entries.render] at nested
  have readMoved : readValue ((Token.plain ['['] :: (tokens ++ [.plain [']']])).map
      (Token.displace definitionColumns) ++ .plain [';'] :: later) =
      some ((Term.array (seenEntries (definition block))).displace definitionColumns,
        .plain [';'] :: later) :=
    readFrom_append (readValue_displace definitionColumns reads) [] _
  have mark : "return [".toList = "return ".toList ++ ['['] := by decide
  rw [returnedArray, mark, layout_classSteps, found]
  simp only [Option.map_some, Option.bind_some, nested, readMoved]

/-! ## The texts of a definition -/

/-- The path of a template as literals, points and a variable. -/
theorem toList_templatePath (template : String) :
    (templatePath template).toList =
      quote "module:".toList ++ (' ' :: '.' :: ' ' :: (moduleVariable ++ (' ' :: '.' :: ' ' ::
        quote (templateDirectory ++ template).toList))) := by
  have opens (rest : List Char) : "'module:' . $this->module->name . '".toList ++ rest =
      quote "module:".toList ++ (' ' :: '.' :: ' ' :: (moduleVariable ++ (' ' :: '.' :: ' ' ::
        '\'' :: rest))) := by
    have fixed : "'module:' . $this->module->name . '".toList = quote "module:".toList ++
        (' ' :: '.' :: ' ' :: (moduleVariable ++ [' ', '.', ' ', '\''])) := by
      decide
    rw [fixed, List.append_assoc, List.cons_append, List.cons_append, List.cons_append,
      List.append_assoc]
    rfl
  have plain : escape templateDirectory.toList = templateDirectory.toList := by decide
  have path : quote (templateDirectory ++ template).toList =
      '\'' :: (templateDirectory.toList ++ (escape template.toList ++ ['\''])) := by
    rw [String.toList_append, quote, escape, List.flatMap_append, ← escape, ← escape, plain,
      List.cons_append, List.append_assoc]
  rw [path]
  refine Eq.trans ?_ (opens _)
  unfold templatePath
  simp only [String.toList_append, String.toList_ofList, List.append_assoc]
  rfl

/-- The path of a template is a fixed text, the name of the module and a text of its own. -/
theorem readSource_templatePath (template : String) :
    readSource (templatePath template).toList =
      some (.joined (.joined (.text "module:".toList) .moduleName)
        (.text (templateDirectory ++ template).toList)) := by
  have named (left : Option Term) : advance [] (.before left) (.plain moduleVariable) =
      some ([], .after (joinTo left .moduleName)) := by
    rw [advance, if_pos rfl]
  have scanned := tokens?_quote_append (templateDirectory ++ template).toList []
  rw [List.append_nil, tokens?_nil] at scanned
  refine readSource_eq_some_iff.mpr ⟨[.literal "module:".toList, .plain ['.'],
    .plain moduleVariable, .plain ['.'], .literal (templateDirectory ++ template).toList], ?_, ?_⟩
  · rw [toList_templatePath, tokens?_quote_append, tokens?_gap (by decide), tokens?_point,
      tokens?_moduleVariable, tokens?_point, scanned]
    rfl
  · rw [readValue, readFrom_of_advance rfl, readFrom_of_advance rfl, readFrom_of_advance (named _),
      readFrom_of_advance rfl, readFrom_of_advance rfl]
    rfl

theorem entrySources_append (front back : Entries) :
    entrySources (front ++ back) = entrySources front ++ entrySources back := by
  induction front with
  | nil => rfl
  | cons first rest ih => simp [entrySources, ih]

theorem entrySources_eq_nil {entries : Entries}
    (plain : ∀ entry ∈ entries, entry.2.sources = []) : entrySources entries = [] := by
  induction entries with
  | nil => rfl
  | cons first rest ih =>
      rw [List.forall_mem_cons] at plain
      simp [entrySources, plain.1, ih plain.2]

theorem entrySources_defaultText (default : Option String) :
    entrySources (defaultText default) = [] := by
  cases default with
  | none => rfl
  | some text =>
      rw [defaultText]
      split <;> rfl

theorem entrySources_choicesEntry (choices : Option (List Choice)) :
    entrySources (choicesEntry choices) = [] := by
  match choices with
  | none => rfl
  | some [] => rfl
  | some (choice :: rest) =>
      have plain : entrySources (choiceEntries (choice :: rest)) = [] := by
        refine entrySources_eq_nil fun entry mem => ?_
        obtain ⟨option, _, rfl⟩ := List.mem_map.mp mem
        rfl
      simp [choicesEntry, entrySources, entry, Literal.sources, plain]

theorem entrySources_numberEntry (key : String) (x : Option Binary64) :
    entrySources (numberEntry key x) = [] := by
  cases x <;> rfl

/-- No kind of field writes an expression. -/
theorem entrySources_kindEntries (kind : FieldKind) : entrySources (kindEntries kind) = [] := by
  cases kind with
  | fileUpload path urls =>
      have plain : entrySources (uploadItems urls) = [] := by
        refine entrySources_eq_nil fun entry mem => ?_
        obtain ⟨url, _, rfl⟩ := List.mem_map.mp mem
        rfl
      simp [kindEntries, entrySources, entry, Literal.sources, plain]
  | multiselect default choices =>
      match default with
      | none => exact entrySources_choicesEntry choices
      | some [] => exact entrySources_choicesEntry choices
      | some (value :: rest) => exact entrySources_choicesEntry choices
  | title default => cases default <;> rfl
  | slider range => simp [kindEntries, entrySources_append, entrySources_numberEntry]
  | editor provider default =>
      simp [kindEntries, entrySources, entry, Literal.sources, entrySources_defaultText]
  | text default => exact entrySources_defaultText default
  | color default => exact entrySources_defaultText default
  | textarea default => exact entrySources_defaultText default
  | datepicker default => exact entrySources_defaultText default
  | select default choices =>
      rw [kindEntries, entrySources_append, entrySources_defaultText, entrySources_choicesEntry]
      rfl
  | radioGroup default choices =>
      rw [kindEntries, entrySources_append, entrySources_defaultText, entrySources_choicesEntry]
      rfl
  | selector collection pattern => rfl
  | checkbox default => rfl

theorem entrySources_fieldsEntries (fields : List Field) :
    entrySources (fieldsEntries fields) = [] := by
  refine entrySources_eq_nil fun item mem => ?_
  obtain ⟨field, _, rfl⟩ := List.mem_map.mp mem
  have forced : entrySources (if field.forceDefault = some true
      then [entry "force_default_value" (.bool true)] else []) = [] := by
    split <;> rfl
  rw [entry, Literal.sources, fieldEntries, entrySources_append, entrySources_append, forced,
    entrySources_kindEntries]
  rfl

/-- The path of the template is the only expression of a definition. -/
theorem entrySources_definition (block : Description) :
    entrySources (definition block) = [templatePath block.template] := by
  have config : entrySources (configEntry block.fields) = [] := by
    cases fields : block.fields with
    | nil => rfl
    | cons first rest =>
        simp [configEntry, entrySources, entry, Literal.sources, entrySources_fieldsEntries]
  have repeater : entrySources (repeaterEntry block.activeRepeater) = [] := by
    cases block.activeRepeater with
    | none => rfl
    | some repeater =>
        simp [repeaterEntry, repeaterEntries, entrySources, entry, Literal.sources,
          entrySources_fieldsEntries]
  rw [definition, entrySources_append, entrySources_append, config, repeater, List.append_nil,
    List.append_nil]
  rfl

theorem readable_definition (block : Description) : Readable (entrySources (definition block)) := by
  rw [entrySources_definition]
  intro source mem
  rw [List.mem_singleton.mp mem, readSource_templatePath]
  rfl

/-- A text that is not reported is there and has the form that was asked for. -/
theorem form_of_checkForm {form : List Char → Bool} {path : List Segment}
    {missing malformed : Problem} {text : String}
    (silent : checkForm form path missing malformed text = []) : form text.toList := by
  rw [checkForm] at silent
  split at silent
  · cases silent
  · rw [reportIf] at silent
    split at silent
    · cases silent
    · rename_i formed
      simpa using formed

/-- What the files of a block are written from: names of the forms that are asked for, and a
repeater exactly if one is announced. -/
structure Checked (block : Description) : Prop where
  blockName : isPascalName block.blockName.toList
  template : isTemplateName block.template.toList
  code : isBlockCode block.code.toList
  repeater : block.repeater.isSome = block.hasRepeater

theorem checked_of_issues {block : Description} (valid : block.issues = []) : Checked block := by
  rw [Description.issues] at valid
  simp only [List.append_eq_nil_iff] at valid
  obtain ⟨⟨⟨⟨⟨⟨name, template⟩, code⟩, -⟩, -⟩, -⟩, announced⟩ := valid
  refine ⟨form_of_checkForm name, form_of_checkForm template, form_of_checkForm code, ?_⟩
  revert announced
  cases block.hasRepeater <;> cases block.repeater <;> simp [checkRepeater]

theorem activeRepeater_of_issues {block : Description} (valid : block.issues = []) :
    block.activeRepeater = block.repeater := by
  have announced := (checked_of_issues valid).repeater
  rw [Description.activeRepeater]
  split
  · rfl
  · rename_i off
    rw [Bool.not_eq_true] at off
    rw [off, Option.isSome_eq_false_iff, Option.isNone_iff_eq_none] at announced
    exact announced.symm

theorem isPascalName_of_ofJsonText {text : String} {block : Description}
    (loaded : Description.ofJsonText text = .ok block) : isPascalName block.blockName.toList := by
  rw [Description.ofJsonText] at loaded
  split at loaded
  · rw [Description.accepted] at loaded
    split at loaded
    · rename_i silent
      cases loaded
      exact (checked_of_issues (List.isEmpty_iff.mp silent)).blockName
    · cases loaded
  · cases loaded

theorem toList_classText (block : Description) :
    (classText block).toList = layout classColumns (classSteps block) :=
  String.toList_ofList

/-- What is read from the class file of a description is the array that its definition
denotes, entry by entry and number by number, with spaces put behind newlines in its texts;
it is that array itself exactly if no text of the definition holds a newline. -/
theorem returnedArray_classText {text : String} {block : Description}
    (loaded : Description.ofJsonText text = .ok block) :
    ∃ read, returnedArray (classText block).toList = some read ∧
      read.shape = (Literal.array (definition block)).meant.shape ∧
      (Literal.array (definition block)).meant.texts.Forall₂ SpacedOut read.texts ∧
      (read = (Literal.array (definition block)).meant ↔
        ∀ text ∈ (Literal.array (definition block)).meant.texts, '\n' ∉ text) ∧
      (Literal.expression (templatePath block.template)).meant =
        .joined (.joined (.text "module:".toList) .moduleName)
          (.text (templateDirectory ++ block.template).toList) := by
  have columns : 0 < definitionColumns := by decide
  refine ⟨(Term.array (seenEntries (definition block))).displace definitionColumns,
    ?_, ?_, ?_, ?_, ?_⟩
  · rw [toList_classText]
    exact returnedArray_layout (isPascalName_of_ofJsonText loaded) (readable_definition block)
  · rw [Term.displace, Term.shape_mapTexts]
    exact (Literal.inline (definition block)).shape_seen
  · rw [Term.displace, Term.texts_mapTexts]
    exact (forall₂_moved_map (texts_seenEntries (definition block)) _).imp
      fun _ _ moved => moved.spacedOut
  · exact (Literal.inline (definition block)).displace_seen_eq_meant_iff columns
  · rw [Literal.meant, readSource_templatePath, Option.getD_some]

/-- A description of a block whose words hold a line break. -/
def twoLineText : String :=
  "\x7b\"blockName\":\"Demo\",\"tplFilename\":\"demo.tpl\",\"code\":\"cpb_demo\","
    ++ "\"nameLabel\":\"Demo\",\"description\":\"a\\nb\",\"hasRepeater\":false,\"fields\":[]\x7d"

def twoLineBlock : Description where
  blockName := "Demo"
  template := "demo.tpl"
  code := "cpb_demo"
  displayName := "Demo"
  about := "a\nb"
  tab := Description.defaultTab
  icon := Description.defaultIcon
  hasRepeater := false
  fields := []
  repeater := none

/-- What a reader gives is known from its results alone. -/
theorem eq_ok_of_toOption {ε α : Type} {result : Except ε α} {a : α}
    (given : result.toOption = some a) : result = .ok a := by
  cases result with
  | error fault => cases given
  | ok found => exact congrArg Except.ok (Option.some.inj given)

theorem ofJsonText_twoLineText : Description.ofJsonText twoLineText = .ok twoLineBlock := by
  apply eq_ok_of_toOption
  decide +kernel

theorem returnedArray_twoLineText :
    ∃ read, returnedArray (classText twoLineBlock).toList = some read ∧
      read.shape = (Literal.array (definition twoLineBlock)).meant.shape := by
  obtain ⟨read, returned, sameShape, _⟩ := returnedArray_classText ofJsonText_twoLineText
  exact ⟨read, returned, sameShape⟩

/-- Words on two lines are not read as they stand in the description. -/
theorem returnedArray_twoLineBlock_ne_meant :
    ∃ text block, Description.ofJsonText text = .ok block ∧
      returnedArray (classText block).toList ≠ some (Literal.array (definition block)).meant := by
  refine ⟨twoLineText, twoLineBlock, ofJsonText_twoLineText, fun same => ?_⟩
  have pascal := isPascalName_of_ofJsonText ofJsonText_twoLineText
  rw [toList_classText, returnedArray_layout pascal (readable_definition _)] at same
  have inLine := ((Literal.inline (definition twoLineBlock)).displace_seen_eq_meant_iff
    (show 0 < definitionColumns by decide)).mp (Option.some.inj same)
  exact inLine "a\nb".toList
    (by simp [Literal.meant, definition, twoLineBlock, meantEntries, entry, Term.texts, entryTexts])
    (by decide)

end BlockForge.Generate
