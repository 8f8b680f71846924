/-
# The markup of a template

The template of a description that breaks no rule is read to its end: its comments, directives and
tags are closed, and what is opened last is closed first. Its parts are fixed except for the comment
at its top and the values of classes, which is where the names of the block are. Each kind of layout
step is read as some parts, at whatever level it stands, and a template is put together from them.
-/

import BlockForge.Generate.Template
import BlockForge.Proofs.Code.LineEnds
import BlockForge.Proofs.Generate.ClassFile
import BlockForge.Proofs.Markup.Part

namespace BlockForge.Generate

open BlockForge.Code BlockForge.Markup

/-! ## The parts of a template -/

def elementParts (name cssClass : String) (body : List Part) : List Part :=
  .opening name.toList [("class".toList, cssClass.toList)] :: (body ++ [.closing name.toList])

def containerCondition : List Char := "!$block.settings.default.container".toList

/-- Parts with the container around them. -/
def containedParts (body : List Part) : List Part :=
  .enclosed .condition containerCondition
      [.opening "div".toList [("class".toList, "container".toList)]] ::
    (body ++ [.enclosed .condition containerCondition [.closing "div".toList]])

/-- An example of how a value is shown: a comment, and the value in an element if it is there. -/
def exampleParts (comment condition base value : String) : List Part :=
  [.comment comment.toList,
    .enclosed .condition condition.toList
      (elementParts "p" (base ++ "__title") [.plain value.toList])]

/-- The parts of a template without a repeater, behind its comment. -/
def flatParts (base : String) : List Part :=
  elementParts "div" base
    (containedParts
      (elementParts "div" (base ++ "__inner")
        (exampleParts " Example field usage " "!empty($block.settings.title)" base
          "$block.settings.title")))

def itemParts (base : String) : List Part :=
  elementParts "div" "col-12 col-md-6"
    (elementParts "div" (base ++ "__item card")
      (elementParts "div" "card-body"
        (exampleParts " Example repeater field usage " "!empty($block.title)" base
          "$block.title nofilter")))

/-- The parts of a template with a repeater, behind its comment. -/
def repeaterParts (base : String) : List Part :=
  [.plain "$blocks = $block.states".toList,
    .enclosed .condition "!empty($blocks)".toList
      (elementParts "div" base
        (containedParts
          (elementParts "div" (base ++ "__items row g-3")
            [.enclosed .loop "from=$blocks item=block".toList (itemParts base)])))]

/-- The parts of a template behind its comment. -/
def bodyParts (repeats : Bool) (base : String) : List Part :=
  if repeats then repeaterParts base else flatParts base

def titleSuffix (repeats : Bool) : String :=
  if repeats then " (Repeater)" else ""

/-- The line of the comment that names the block. -/
def titleLine (block : Description) : List Char :=
  " * Prettyblocks template - ".toList ++
    (block.blockName.toList ++ (titleSuffix block.hasRepeater).toList)

def headerComment (block : Description) : List Char :=
  "*\n".toList ++ (titleLine block ++ "\n ".toList)

/-! ## Steps that are read -/

/-- A step that ends at the level at which it starts and is read as some parts. -/
def ReadsAs (step : Step) (parts : List Part) : Prop :=
  ∀ level, (step.run templateColumns level).2 = level ∧
    Reads (step.run templateColumns level).1 parts

/-- Steps that end at the level at which they start and are read as some parts. -/
def AllReadAs (steps : List Step) (parts : List Part) : Prop :=
  ∀ level, (runSteps templateColumns steps level).2 = level ∧
    Reads (runSteps templateColumns steps level).1 parts

variable {steps : List Step} {step : Step} {parts others : List Part} {text : List Char}

theorem allReadAs_nil : AllReadAs [] [] := fun _ => ⟨rfl, reads_nil⟩

theorem ReadsAs.cons (first : ReadsAs step parts) (later : AllReadAs steps others) :
    AllReadAs (step :: steps) (parts ++ others) := by
  intro level
  rw [runSteps]
  dsimp only
  rw [(first level).1]
  exact ⟨(later level).1, (first level).2.append (later level).2⟩

theorem reads_newline : Reads ['\n'] [] := reads_blanks (by simp)

theorem reads_spaces (blank : ∀ c ∈ text, c = ' ') : Reads text [] :=
  reads_blanks fun c held => .inl (blank c held)

theorem reads_lineAt (reads : Reads text parts) (columns level : Nat) :
    Reads (lineAt columns level text) parts := by
  obtain ⟨margin, blank, same⟩ := lineAt_eq columns level text
  rw [same]
  simpa using (reads_spaces blank).append (reads.append reads_newline)

theorem readsAs_line {text : String} (reads : Reads text.toList parts) :
    ReadsAs (line text) parts :=
  fun level => ⟨rfl, reads_lineAt reads templateColumns level⟩

theorem readsAs_blank : ReadsAs .blank [] := fun _ => ⟨rfl, reads_newline⟩

/-- A block is read as its lines and what is inside. -/
theorem run_block {header close : List Char} (inside : AllReadAs steps parts) (level : Nat) :
    (Step.block header close steps).run templateColumns level =
      (lineAt templateColumns level header ++
        (runSteps templateColumns steps (level + 1)).1 ++ lineAt templateColumns level close,
        level) := by
  rw [Step.run]
  dsimp only
  rw [(inside (level + 1)).1, Nat.add_sub_cancel]

/-- An element is a block between its tags. -/
theorem element_eq (name cssClass : String) (steps : List Step) :
    element name cssClass steps =
      .block (openingTag name.toList cssClass.toList) (closingTag name.toList) steps := by
  simp [element, enclosed, openingTag, closingTag]

theorem readsAs_element {name cssClass : String} (named : isElementName name.toList)
    (plain : ∀ c ∈ cssClass.toList, isValueChar c) (inside : AllReadAs steps parts) :
    ReadsAs (element name cssClass steps) (elementParts name cssClass parts) := by
  intro level
  rw [element_eq, run_block inside level]
  refine ⟨rfl, ?_⟩
  have opened := reads_lineAt (reads_openingTag named plain) templateColumns level
  have closed := reads_lineAt (reads_closingTag named) templateColumns level
  exact (opened.append (inside (level + 1)).2).append closed

theorem readsAs_enclosed {kind : Kind} {header opens closes : List Char} {opener closer : String}
    (scannedOpener : scan .outside opener.toList = some ([.directive opens], .outside))
    (opening : command? opens = some (.opens kind header))
    (scannedCloser : scan .outside closer.toList = some ([.directive closes], .outside))
    (closing : command? closes = some (.closes kind)) (inside : AllReadAs steps parts) :
    ReadsAs (enclosed opener closer steps) [.enclosed kind header parts] := by
  intro level
  rw [enclosed, run_block inside level]
  refine ⟨rfl, ?_⟩
  obtain ⟨margin, blank, same⟩ := lineAt_eq templateColumns level opener.toList
  obtain ⟨marginToo, blankToo, sameToo⟩ := lineAt_eq templateColumns level closer.toList
  have body := reads_newline.append ((inside (level + 1)).2.append (reads_spaces blankToo))
  have whole := ((reads_spaces blank).append
    (reads_enclosed scannedOpener opening scannedCloser closing body)).append reads_newline
  rw [same, sameToo]
  simpa using whole

theorem ReadsAs.alone (reads : ReadsAs step parts) : AllReadAs [step] parts := by
  simpa using reads.cons allReadAs_nil

/-! ## The steps of a template -/

theorem readsAs_div {cssClass : String} (plain : ∀ c ∈ cssClass.toList, isValueChar c)
    (inside : AllReadAs steps parts) :
    ReadsAs (element "div" cssClass steps) (elementParts "div" cssClass parts) :=
  readsAs_element (by decide) plain inside

theorem readsAs_condition {opener : String} {header : List Char}
    (scanned : scan .outside opener.toList =
      some ([.directive ("if ".toList ++ header)], .outside))
    (opening : command? ("if ".toList ++ header) = some (.opens .condition header))
    (inside : AllReadAs steps parts) :
    ReadsAs (enclosed opener endIf steps) [.enclosed .condition header parts] := by
  have scannedEnd : scan .outside endIf.toList = some ([.directive "/if".toList], .outside) := by
    decide
  have closing : command? "/if".toList = some (.closes .condition) := by decide
  exact readsAs_enclosed scanned opening scannedEnd closing inside

theorem readsAs_guarded (inside : AllReadAs steps parts) :
    ReadsAs (enclosed containerGuard endIf steps)
      [.enclosed .condition containerCondition parts] :=
  readsAs_condition (by decide) (by decide) inside

theorem readsAs_openContainer : ReadsAs openContainer
    [.enclosed .condition containerCondition
      [.opening "div".toList [("class".toList, "container".toList)]]] := by
  have tag : Reads "<div class=\"container\">".toList
      [.opening "div".toList [("class".toList, "container".toList)]] := by
    show Reads (openingTag "div".toList "container".toList) _
    exact reads_openingTag (by decide) (List.all_eq_true.mp (by decide))
  exact readsAs_guarded (readsAs_line tag).alone

theorem readsAs_closeContainer : ReadsAs closeContainer
    [.enclosed .condition containerCondition [.closing "div".toList]] := by
  have tag : Reads "</div>".toList [.closing "div".toList] := by
    show Reads (closingTag "div".toList) _
    exact reads_closingTag (by decide)
  exact readsAs_guarded (readsAs_line tag).alone

/-- Steps with the container around them. -/
theorem allReadAs_contained (inner : ReadsAs step parts) :
    AllReadAs [openContainer, .blank, step, .blank, closeContainer] (containedParts parts) :=
  readsAs_openContainer.cons (readsAs_blank.cons (inner.cons (readsAs_blank.cons
    readsAs_closeContainer.alone)))

section Body

variable {base : String} (plain : ∀ c ∈ base.toList, isValueChar c)

include plain

theorem plain_append {suffix : String} (good : suffix.toList.all isValueChar) :
    ∀ c ∈ (base ++ suffix).toList, isValueChar c := by
  rw [String.toList_append, List.forall_mem_append]
  exact ⟨plain, List.all_eq_true.mp good⟩

theorem allReadAs_example {commentLine opener valueLine comment condition value : String}
    (commented : scan .outside commentLine.toList = some ([.comment comment.toList], .outside))
    (scanned : scan .outside opener.toList =
      some ([.directive ("if ".toList ++ condition.toList)], .outside))
    (opening : command? ("if ".toList ++ condition.toList) =
      some (.opens .condition condition.toList))
    (shown : scan .outside valueLine.toList = some ([.directive value.toList], .outside))
    (alone : command? value.toList = some .plain) :
    AllReadAs
      [line commentLine,
        enclosed opener endIf [element "p" (base ++ "__title") [line valueLine]]]
      (exampleParts comment condition base value) := by
  have title : ReadsAs (element "p" (base ++ "__title") [line valueLine])
      (elementParts "p" (base ++ "__title") [.plain value.toList]) :=
    readsAs_element (by decide) (plain_append plain (by decide))
      (readsAs_line (reads_plain shown alone)).alone
  exact (readsAs_line (reads_comment commented)).cons
    (readsAs_condition scanned opening title.alone).alone

theorem readsAs_itemSteps : ReadsAs (itemSteps base) (itemParts base) := by
  have shown : AllReadAs
      [line "\x7b* Example repeater field usage *\x7d",
        enclosed "\x7bif !empty($block.title)\x7d" endIf
          [element "p" (base ++ "__title") [line "\x7b$block.title nofilter\x7d"]]]
      (exampleParts " Example repeater field usage " "!empty($block.title)" base
        "$block.title nofilter") :=
    allReadAs_example plain (by decide) (by decide) (by decide) (by decide) (by decide)
  have body : ReadsAs (element "div" "card-body" _) (elementParts "div" "card-body" _) :=
    readsAs_div (List.all_eq_true.mp (by decide)) shown
  have card : ReadsAs (element "div" (base ++ "__item card") _)
      (elementParts "div" (base ++ "__item card") _) :=
    readsAs_div (plain_append plain (by decide)) body.alone
  exact readsAs_div (List.all_eq_true.mp (by decide)) card.alone

/-- The steps of a template without a repeater, behind its comment. -/
theorem readsAs_flat : ReadsAs
    (element "div" base
      [openContainer,
        .blank,
        element "div" (base ++ "__inner")
          [line "\x7b* Example field usage *\x7d",
            enclosed "\x7bif !empty($block.settings.title)\x7d" endIf
              [element "p" (base ++ "__title") [line "\x7b$block.settings.title\x7d"]]],
        .blank,
        closeContainer])
    (flatParts base) := by
  have shown : AllReadAs
      [line "\x7b* Example field usage *\x7d",
        enclosed "\x7bif !empty($block.settings.title)\x7d" endIf
          [element "p" (base ++ "__title") [line "\x7b$block.settings.title\x7d"]]]
      (exampleParts " Example field usage " "!empty($block.settings.title)" base
        "$block.settings.title") :=
    allReadAs_example plain (by decide) (by decide) (by decide) (by decide) (by decide)
  have inner : ReadsAs (element "div" (base ++ "__inner") _)
      (elementParts "div" (base ++ "__inner") _) :=
    readsAs_div (plain_append plain (by decide)) shown
  exact readsAs_div plain (allReadAs_contained inner)

/-- The steps of a template with a repeater, behind its comment. -/
theorem allReadAs_repeater : AllReadAs
    [line "\x7b$blocks = $block.states\x7d",
      .blank,
      enclosed "\x7bif !empty($blocks)\x7d" endIf
        [element "div" base
          [openContainer,
            .blank,
            element "div" (base ++ "__items row g-3")
              [enclosed "\x7bforeach from=$blocks item=block\x7d" "\x7b/foreach\x7d"
                [itemSteps base]],
            .blank,
            closeContainer]]]
    (repeaterParts base) := by
  have states : ReadsAs (line "\x7b$blocks = $block.states\x7d")
      [.plain "$blocks = $block.states".toList] :=
    readsAs_line (reads_plain (by decide) (by decide))
  have opens : scan .outside "\x7bforeach from=$blocks item=block\x7d".toList =
      some ([.directive "foreach from=$blocks item=block".toList], .outside) := by
    decide
  have closes : scan .outside "\x7b/foreach\x7d".toList =
      some ([.directive "/foreach".toList], .outside) := by
    decide
  have loop : ReadsAs (enclosed "\x7bforeach from=$blocks item=block\x7d" "\x7b/foreach\x7d" _)
      [.enclosed .loop "from=$blocks item=block".toList _] :=
    readsAs_enclosed opens (by decide) closes (by decide) (readsAs_itemSteps plain).alone
  have items : ReadsAs (element "div" (base ++ "__items row g-3") _)
      (elementParts "div" (base ++ "__items row g-3") _) :=
    readsAs_div (plain_append plain (by decide)) loop.alone
  have whole : ReadsAs (enclosed "\x7bif !empty($blocks)\x7d" endIf _)
      [.enclosed .condition "!empty($blocks)".toList _] :=
    readsAs_condition (by decide) (by decide) (readsAs_div plain (allReadAs_contained items)).alone
  exact states.cons (readsAs_blank.cons whole.alone)

end Body

/-! ## The names in a template -/

variable {block : Description}

theorem isValueChar_of_isSnakeChar {c : Char} (snake : isSnakeChar c) : isValueChar c := by
  simp only [isValueChar, Bool.and_eq_true, bne_iff_ne]
  refine ⟨⟨⟨⟨⟨?_, ?_⟩, ?_⟩, ?_⟩, ?_⟩, ?_⟩ <;>
  · rintro rfl
    cases snake

/-- The outermost class has no character that ends it early. -/
theorem plain_cssBasename (valid : block.issues = []) :
    ∀ c ∈ (cssBasename block.code).toList, isValueChar c := by
  have formed := (checked_of_issues valid).code
  rw [isBlockCode] at formed
  split at formed
  · rename_i rest cut
    rw [Bool.and_eq_true, List.all_eq_true] at formed
    have code : block.code.toList = codeMark ++ rest :=
      (List.isPrefixOf?_eq_some_iff_append_eq.mp cut).symm
    have replaced : (cssBasename block.code).toList = "cpb-".toList ++ rest := by
      rw [cssBasename, String.toList_ofList, code]
      rfl
    rw [replaced, List.forall_mem_append]
    exact ⟨List.all_eq_true.mp (by decide), fun c held => isValueChar_of_isSnakeChar (formed.2 c held)⟩
  · cases formed

theorem isAlphanum_blockName (valid : block.issues = []) :
    ∀ c ∈ block.blockName.toList, c.isAlphanum := by
  have letters := isAlphanum_className (checked_of_issues valid).blockName
  rw [Description.className, String.toList_append, List.all_append, Bool.and_eq_true] at letters
  exact List.all_eq_true.mp letters.1

/-! ## The comment at the top -/

def bodySteps (block : Description) : List Step :=
  (templateSteps block).drop 4

theorem templateSteps_eq (block : Description) : templateSteps block =
    templateHeader block (titleSuffix block.hasRepeater) ++ bodySteps block := by
  rw [bodySteps, templateSteps]
  cases block.hasRepeater <;> rfl

/-- The comment is written at the outermost level, followed by an empty line. -/
theorem runSteps_templateHeader (columns : Nat) (block : Description) (suffix : String)
    (later : List Step) : (runSteps columns (templateHeader block suffix ++ later) 0).1 =
      "\x7b**\n * Prettyblocks template - ".toList ++ (block.blockName.toList ++ (suffix.toList ++
        "\n *\x7d\n\n".toList)) ++ (runSteps columns later 0).1 := by
  simp only [templateHeader, line, List.cons_append, List.nil_append, runSteps, Step.run,
    lineAt_zero, String.toList_append, List.append_assoc]
  rfl

/-- A template is its comment, an empty line and what is behind them. -/
theorem templateText_toList (block : Description) : (templateText block).toList =
    "\x7b*".toList ++ (headerComment block ++ "*\x7d".toList) ++ "\n\n".toList ++
      (runSteps templateColumns (bodySteps block) 0).1 := by
  have front : "\x7b**\n * Prettyblocks template - ".toList =
      "\x7b*".toList ++ ("*\n".toList ++ " * Prettyblocks template - ".toList) := rfl
  have back : "\n *\x7d\n\n".toList = "\n ".toList ++ ("*\x7d".toList ++ "\n\n".toList) := rfl
  rw [templateText, String.toList_ofList, layout, templateSteps_eq, runSteps_templateHeader, front,
    back]
  unfold headerComment titleLine
  simp only [List.append_assoc]

theorem scan_header (valid : block.issues = []) :
    scan .outside ("\x7b*".toList ++ (headerComment block ++ "*\x7d".toList)) =
      some ([.comment (headerComment block)], .outside) := by
  have named : ∀ c ∈ block.blockName.toList ++ (titleSuffix block.hasRepeater).toList,
      c ≠ '*' := by
    rw [List.forall_mem_append]
    refine ⟨fun c held => ?_, ?_⟩
    · rintro rfl
      cases isAlphanum_blockName valid '*' held
    · cases block.hasRepeater <;> simp [titleSuffix]
  have opens : scan .outside ("\x7b*".toList ++ ("*\n".toList ++
      " * Prettyblocks template - ".toList)) =
        some ([], .comment ("*\n".toList ++ " * Prettyblocks template - ".toList)) := by
    decide
  have closes (before : List Char) : scan (.comment before) ("\n ".toList ++ "*\x7d".toList) =
      some ([.comment (before ++ "\n ".toList)], .outside) := by
    show some ([Token.comment ((before ++ ['\n']) ++ [' '])], Mode.outside) = _
    rw [List.append_assoc]
    rfl
  have whole := scan_append opens (scan_append (scan_comment named _) (closes _))
  unfold headerComment titleLine
  simpa only [List.append_assoc, List.nil_append] using whole

theorem allReadAs_bodySteps (valid : block.issues = []) :
    AllReadAs (bodySteps block) (bodyParts block.hasRepeater (cssBasename block.code)) := by
  have plain := plain_cssBasename valid
  rw [bodySteps, templateSteps, bodyParts]
  cases block.hasRepeater with
  | true => exact allReadAs_repeater plain
  | false => exact (readsAs_flat plain).alone

/-- A template is read as its comment and the parts behind it. -/
theorem parts?_templateText (valid : block.issues = []) :
    parts? (templateText block).toList = some (.comment (headerComment block) ::
      bodyParts block.hasRepeater (cssBasename block.code)) := by
  have header := reads_comment (scan_header valid)
  have gap : Reads "\n\n".toList [] := reads_blanks (by simp)
  have body := (allReadAs_bodySteps valid 0).2
  rw [templateText_toList]
  exact parts?_of_reads ((header.append gap).append body)

end BlockForge.Generate
