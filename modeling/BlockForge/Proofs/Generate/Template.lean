/-
# Templates are well formed

The template of a description that breaks no rule is read to its end. However it is shown, its
elements are nested: the container is opened and closed under one condition, so this holds whether
it is there or not. Its lines are neat. And it repeats a part for every item exactly if the
definition of the block has a repeater, since the rules ask for a repeater exactly if one is
announced.
-/

import BlockForge.Proofs.Generate.Markup
import BlockForge.Proofs.Markup.Shown
import BlockForge.Proofs.Text.Pattern

namespace BlockForge.Generate

open BlockForge.Code BlockForge.Markup

variable {block : Description} {steps : List Step} {step : Step}

/-! ## What a template shows -/

section Shown

variable {guard : List Char} {held : Bool} {body : List Part}

theorem shownNested_elementParts (inner : ShownNested guard held body) (name cssClass : String) :
    ShownNested guard held (elementParts name cssClass body) :=
  inner.element _ _

theorem shownNested_exampleParts (comment condition base value : String) :
    ShownNested guard held (exampleParts comment condition base value) :=
  (shownNested_comment _).append ((shownNested_elementParts (shownNested_plain _) _ _).condition _)

/-- Whatever is shown of a template is nested, with the container and without it. -/
theorem shownNested_bodyParts (repeats held : Bool) (base : String) :
    ShownNested containerCondition held (bodyParts repeats base) := by
  have contained {body : List Part} (inner : ShownNested containerCondition held body) :
      ShownNested containerCondition held (containedParts body) :=
    inner.guarded _ _
  cases repeats with
  | true =>
      have item : ShownNested containerCondition held (itemParts base) :=
        shownNested_elementParts (shownNested_elementParts (shownNested_elementParts
          (shownNested_exampleParts _ _ _ _) _ _) _ _) _ _
      have items := shownNested_elementParts (item.loop "from=$blocks item=block".toList) "div"
        (base ++ "__items row g-3")
      exact (shownNested_plain _).append
        ((shownNested_elementParts (contained items) "div" base).condition _)
  | false =>
      have shown : ShownNested containerCondition held
          (exampleParts " Example field usage " "!empty($block.settings.title)" base
            "$block.settings.title") :=
        shownNested_exampleParts _ _ _ _
      have inner := shownNested_elementParts shown "div" (base ++ "__inner")
      exact shownNested_elementParts (contained inner) "div" base

end Shown

/-- Apart from the values of classes, the parts are the same for all names. -/
theorem outlineOf_bodyParts (repeats : Bool) (base other : String) :
    outlineOf (bodyParts repeats base) = outlineOf (bodyParts repeats other) := by
  cases repeats <;> rfl

theorem haveLoop_bodyParts (repeats : Bool) (base : String) :
    haveLoop (bodyParts repeats base) = repeats := by
  cases repeats <;> rfl

theorem repeater_mem_keys_iff (valid : block.issues = []) :
    "repeater" ∈ (definition block).keys ↔ block.hasRepeater = true := by
  have config : "repeater" ∉ Entries.keys (configEntry block.fields) := by
    cases block.fields with
    | nil => exact List.not_mem_nil
    | cons field rest => simp [configEntry, Entries.keys, entry]
  have own : "repeater" ∈ Entries.keys (repeaterEntry block.activeRepeater) ↔
      block.activeRepeater.isSome := by
    cases block.activeRepeater with
    | none => decide
    | some repeater => exact iff_of_true List.mem_cons_self rfl
  have active : block.activeRepeater.isSome = block.hasRepeater := by
    rw [Description.activeRepeater]
    split
    · rename_i announced
      rw [(checked_of_issues valid).repeater, announced]
    · rename_i silent
      exact (Bool.eq_false_iff.mpr silent).symm
  rw [← active, ← own, definition, Entries.keys, List.filterMap_append, List.filterMap_append,
    List.mem_append, List.mem_append]
  refine (or_iff_right ?_)
  rintro (fixed | configured)
  · simp [entry] at fixed
  · exact config configured

/-! ## Lines -/

theorem neatLine_openingTag {name cssClass : List Char} (named : isElementName name)
    (plain : ∀ c ∈ cssClass, isValueChar c) : NeatLine (openingTag name cssClass) := by
  have whole : openingTag name cssClass =
      ('<' :: (name ++ (" class=\"".toList ++ cssClass))) ++ "\">".toList := by
    simp [openingTag]
  rw [isElementName, Bool.and_eq_true, List.all_eq_true] at named
  rw [whole]
  have ending : NeatLine "\">".toList := by decide
  refine ending.append_left (by decide) fun held => ?_
  have outside : '\n' ∉ " class=\"".toList := by decide
  simp only [List.mem_cons, List.mem_append, outside, false_or] at held
  rcases held with same | inName | inClass
  · cases same
  · cases named.2 _ inName
  · cases plain _ inClass

theorem neatLine_closingTag {name : List Char} (named : isElementName name) :
    NeatLine (closingTag name) := by
  rw [isElementName, Bool.and_eq_true, List.all_eq_true] at named
  have whole : closingTag name = ('<' :: '/' :: name) ++ ['>'] := rfl
  have ending : NeatLine ['>'] := by decide
  rw [whole]
  refine ending.append_left (by decide) fun held => ?_
  simp only [List.mem_cons] at held
  rcases held with same | same | inName
  · cases same
  · cases same
  · cases named.2 _ inName

theorem neat_element {name cssClass : String} (named : isElementName name.toList)
    (plain : ∀ c ∈ cssClass.toList, isValueChar c) (inside : NeatSteps steps) :
    (element name cssClass steps).Neat := by
  rw [element_eq]
  exact ⟨neatLine_openingTag named plain, neatLine_closingTag named, inside⟩

theorem neat_line {text : String} (neat : NeatLine text.toList) : (line text).Neat := neat

theorem neat_enclosed {opener closer : String} (opens : NeatLine opener.toList)
    (closes : NeatLine closer.toList) (inside : NeatSteps steps) :
    (enclosed opener closer steps).Neat :=
  ⟨opens, closes, inside⟩

theorem neatSteps_contained (inner : step.Neat) :
    NeatSteps [openContainer, .blank, step, .blank, closeContainer] := by
  have opens : openContainer.Neat :=
    neat_enclosed (by decide) (by decide) ⟨neat_line (by decide), trivial⟩
  have closes : closeContainer.Neat :=
    neat_enclosed (by decide) (by decide) ⟨neat_line (by decide), trivial⟩
  exact ⟨opens, trivial, inner, trivial, closes, trivial⟩

section Body

variable {base : String} (plain : ∀ c ∈ base.toList, isValueChar c)

include plain

theorem neatSteps_example {commentLine opener valueLine : String}
    (comment : NeatLine commentLine.toList) (opens : NeatLine opener.toList)
    (value : NeatLine valueLine.toList) :
    NeatSteps [line commentLine,
      enclosed opener endIf [element "p" (base ++ "__title") [line valueLine]]] := by
  have title : (element "p" (base ++ "__title") [line valueLine]).Neat :=
    neat_element (by decide) (plain_append plain (by decide)) ⟨neat_line value, trivial⟩
  exact ⟨neat_line comment, neat_enclosed opens (by decide) ⟨title, trivial⟩, trivial⟩

theorem neat_itemSteps : (itemSteps base).Neat := by
  refine neat_element (by decide) (List.all_eq_true.mp (by decide)) ⟨?_, trivial⟩
  refine neat_element (by decide) (plain_append plain (by decide)) ⟨?_, trivial⟩
  refine neat_element (by decide) (List.all_eq_true.mp (by decide)) ?_
  exact neatSteps_example plain (by decide) (by decide) (by decide)

end Body

theorem neatSteps_bodySteps (valid : block.issues = []) : NeatSteps (bodySteps block) := by
  have plain := plain_cssBasename valid
  rw [bodySteps, templateSteps]
  cases block.hasRepeater with
  | true =>
      refine ⟨neat_line (by decide), trivial, ?_, trivial⟩
      refine neat_enclosed (by decide) (by decide) ⟨neat_element (by decide) plain ?_, trivial⟩
      refine neatSteps_contained (neat_element (by decide) (plain_append plain (by decide)) ?_)
      exact ⟨neat_enclosed (by decide) (by decide) ⟨neat_itemSteps plain, trivial⟩, trivial⟩
  | false =>
      refine ⟨neat_element (by decide) plain ?_, trivial⟩
      refine neatSteps_contained (neat_element (by decide) (plain_append plain (by decide)) ?_)
      exact neatSteps_example plain (by decide) (by decide) (by decide)

theorem isBlank_of_isAlphanum {c : Char} (letter : c.isAlphanum) : Text.isBlank c = false := by
  have all : (Pattern.upper ++ Pattern.lower ++ Pattern.digits).all (!Text.isBlank ·) := by
    decide
  simpa using List.all_eq_true.mp all c (Pattern.mem_letters_digits.mpr letter)

theorem neat_titleLine (valid : block.issues = []) : NeatLine (titleLine block) := by
  have letters := isAlphanum_blockName valid
  have noNewline : '\n' ∉ block.blockName.toList := by
    intro held
    cases letters '\n' held
  have named : block.blockName.toList ≠ [] := by
    intro empty
    have formed := (checked_of_issues valid).blockName
    rw [empty] at formed
    cases formed
  have fixed : '\n' ∉ " * Prettyblocks template - ".toList := by decide
  have name : NeatLine (block.blockName.toList ++ (titleSuffix block.hasRepeater).toList) := by
    cases block.hasRepeater with
    | true =>
        have ending : NeatLine " (Repeater)".toList := by decide
        exact ending.append_left (by decide) noNewline
    | false =>
        rw [titleSuffix, if_neg Bool.false_ne_true, String.toList_empty, List.append_nil]
        exact ⟨noNewline, fun c held =>
          isBlank_of_isAlphanum (letters c (List.mem_of_getLast? held))⟩
  exact name.append_left (fun empty => named (List.append_eq_nil_iff.mp empty).1) fixed

theorem neatSteps_templateSteps (valid : block.issues = []) : NeatSteps (templateSteps block) := by
  have title : (" * Prettyblocks template - " ++ block.blockName ++
      titleSuffix block.hasRepeater).toList = titleLine block := by
    rw [String.toList_append, String.toList_append, List.append_assoc]
    rfl
  rw [templateSteps_eq]
  refine ⟨neat_line (by decide), neat_line ?_, neat_line (by decide), trivial,
    neatSteps_bodySteps valid⟩
  rw [title]
  exact neat_titleLine valid

theorem endsOnce_bodySteps (block : Description) (level : Nat) :
    EndsOnce (runSteps templateColumns (bodySteps block) level).1 := by
  rw [bodySteps, templateSteps]
  cases block.hasRepeater with
  | true =>
      have closing : NeatLine endIf.toList := by decide
      exact endsOnce_runSteps (fun level => endsOnce_run_block closing (by decide) _ _ _ level)
        [line "\x7b$blocks = $block.states\x7d", .blank] level
  | false =>
      have closing : NeatLine ("</" ++ "div" ++ ">").toList := by decide
      exact endsOnce_runSteps (fun level => endsOnce_run_block closing (by decide) _ _ _ level)
        [] level

/-- The comment stands on the first three lines. -/
theorem take_lines_templateText (valid : block.issues = []) :
    (Text.lines (templateText block).toList).take 3 =
      ["\x7b**".toList, titleLine block, " *\x7d".toList] := by
  have first : '\n' ∉ "\x7b**".toList := by decide
  have third : '\n' ∉ " *\x7d".toList := by decide
  have same (rest : List Char) : "\x7b*".toList ++ (headerComment block ++ "*\x7d".toList) ++
      "\n\n".toList ++ rest = "\x7b**".toList ++ '\n' :: (titleLine block ++
        '\n' :: (" *\x7d".toList ++ '\n' :: '\n' :: rest)) := by
    unfold headerComment
    simp
  rw [templateText_toList, same, lines_append_newline first,
    lines_append_newline (neat_titleLine valid).inside, lines_append_newline third]
  rfl

/-! ## Well-formed templates -/

/-- The template of a block is read as its comment and some parts, and these parts agree with the
definition of the block. -/
structure WellFormed (block : Description) (parts : List Part) : Prop where
  /-- Everything that is opened is closed in its order, and the comment ends where it should. -/
  read : parts? (templateText block).toList = some (.comment (headerComment block) :: parts)
  /-- The comment is on lines of its own, the last of which ends it. -/
  header : (Text.lines (templateText block).toList).take 3 =
    ["\x7b**".toList, titleLine block, " *\x7d".toList]
  /-- The template can be shown, with the container and without it. -/
  shown : ∀ held, ∃ tags,
    Shows containerCondition held (.comment (headerComment block) :: parts) tags
  /-- However it is shown, its elements are nested. -/
  nested : ∀ held, ShownNested containerCondition held (.comment (headerComment block) :: parts)
  /-- Apart from the comment and the values of classes, nothing in it is the user's. -/
  fixed : outlineOf parts = outlineOf (bodyParts block.hasRepeater "")
  /-- There is a loop exactly if the definition has a repeater. -/
  repeats : haveLoop parts = true ↔ "repeater" ∈ (definition block).keys
  /-- No line ends in a blank. -/
  trimmed : ∀ line ∈ Text.lines (templateText block).toList,
    ∀ c ∈ line.getLast?, Text.isBlank c = false
  /-- The text ends in exactly one newline. -/
  ends : EndsOnce (templateText block).toList

/-- The template of a description that breaks no rule is well formed. -/
theorem template_wellFormed (valid : block.issues = []) : ∃ parts, WellFormed block parts := by
  refine ⟨bodyParts block.hasRepeater (cssBasename block.code), ?_⟩
  have neat := neatText_runSteps _ (neatSteps_templateSteps valid) templateColumns 0
  exact {
    read := parts?_templateText valid
    header := take_lines_templateText valid
    shown := fun held => exists_shows containerCondition held _
    nested := fun held =>
      (shownNested_comment _).append (shownNested_bodyParts block.hasRepeater held _)
    fixed := outlineOf_bodyParts block.hasRepeater _ _
    repeats := by rw [haveLoop_bodyParts, repeater_mem_keys_iff valid]
    trimmed := by
      rw [templateText, String.toList_ofList]
      exact fun _ among => neat.ending among
    ends := by
      rw [templateText_toList]
      exact (endsOnce_bodySteps block 0).append_left _ }

/-- A block whose template has a loop. -/
def carouselBlock : Description where
  blockName := "Carousel"
  template := "carousel.tpl"
  code := "cpb_carousel"
  displayName := "Carousel"
  about := "Slides, one after the other"
  tab := Description.defaultTab
  icon := Description.defaultIcon
  hasRepeater := true
  fields := []
  repeater := some ⟨"Slides", "title", [{ name := "title", label := "Title", kind := .text none }]⟩

theorem template_wellFormed_carouselBlock :
    carouselBlock.issues = [] ∧
      ∃ parts, WellFormed carouselBlock parts ∧ haveLoop parts = true := by
  have valid : carouselBlock.issues = [] := by decide
  obtain ⟨parts, wellFormed⟩ := template_wellFormed valid
  exact ⟨valid, parts, wellFormed, wellFormed.repeats.mpr (by decide)⟩

end BlockForge.Generate
