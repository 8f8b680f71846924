/-
# The names of a new description

A new description takes three names from one, and the checks accept it exactly if the name of the
block is one. The name of the block is told by the code and by the name of the template alone, since
words that were set apart can be run together again. So blocks of different names share neither
their codes nor their files.
-/

import BlockForge.Proofs.Block.Rules
import BlockForge.Proofs.Generate.ClassFile
import BlockForge.Proofs.Text.Words
import BlockForge.Work.Scaffold

namespace BlockForge.Work

open BlockForge.Text

/-- The code of a block and the name of its template tell the name of the block. -/
structure TellsName (block : Description) : Prop where
  code : ∃ rest, block.code = "cpb_" ++ rest ∧ pascalCase rest = block.blockName
  template : ∃ stem, block.template = stem ++ ".tpl" ∧ pascalCase stem = block.blockName

/-- Two blocks share neither their code, nor their template, nor the file they are described in,
whatever its format is. -/
structure Apart (block other : Description) : Prop where
  code : block.code ≠ other.code
  template : block.template ≠ other.template
  file : ∀ format formatToo,
    (descriptionFile block format).name ≠ (descriptionFile other formatToo).name

variable {name : String} {repeater : Bool}

/-! ## The checks -/

theorem checkForm_eq_nil {form : List Char → Bool} (rejects : form [] = false) {text : String}
    (formed : form text.toList) (path : List Segment) (missing malformed : Problem) :
    checkForm form path missing malformed text = [] := by
  have paths := pathsOf_checkForm rejects path missing malformed text
  rw [formed, if_pos rfl] at paths
  exact List.map_eq_nil_iff.mp paths

theorem checkPresent_eq_nil {text : String} (there : text ≠ "") (path : List Segment)
    (missing : Problem) : checkPresent path missing text = [] := by
  have paths := pathsOf_checkPresent path missing text
  rw [if_neg there] at paths
  exact List.map_eq_nil_iff.mp paths

theorem isTemplateName_kebabCase (pascal : isPascalName name.toList) :
    isTemplateName (kebabCase name ++ ".tpl").toList := by
  obtain ⟨there, kebab⟩ := forall_separated (show isWordGap '-' by rfl) pascal
  rw [Pattern.isTemplateName_iff, Pattern.template, Pattern.mem_mul_word]
  refine ⟨_, Pattern.mem_several.mpr ⟨there, fun c held => ?_⟩, ?_⟩
  · exact Pattern.mem_kebab.mpr (kebab c held)
  · rw [kebabCase, String.toList_append, String.toList_ofList]

theorem isBlockCode_snakeCase (pascal : isPascalName name.toList) :
    isBlockCode ("cpb_" ++ snakeCase name).toList := by
  obtain ⟨there, snake⟩ := forall_separated (show isWordGap '_' by rfl) pascal
  rw [Pattern.isBlockCode_iff, Pattern.code, Pattern.mem_word_mul]
  refine ⟨_, Pattern.mem_several.mpr ⟨there, fun c held => ?_⟩, ?_⟩
  · exact Pattern.mem_snake.mpr (snake c held)
  · rw [snakeCase, String.toList_append, String.toList_ofList, String.toList_ofList]

/-- Nothing but the name of the block decides whether a new description is accepted. -/
theorem issues_scaffold_eq_nil_iff :
    (scaffold name repeater).issues = [] ↔ isPascalName (pascalCase name).toList := by
  constructor
  · exact fun valid => (Generate.checked_of_issues valid).blockName
  · intro pascal
    have there : pascalCase name ≠ "" := by
      intro empty
      rw [empty] at pascal
      cases pascal
    have about : pascalCase name ++ " block" ≠ "" := by simp
    have fields : checkEach checkField [.key "fields"] [starterField] = [] := by decide +kernel
    have repeats :
        checkRepeater repeater (if repeater then some starterRepeater else none) = [] := by
      cases repeater <;> decide +kernel
    simp only [scaffold, Description.issues, checkForm_eq_nil rfl pascal,
      checkForm_eq_nil rfl (isTemplateName_kebabCase pascal),
      checkForm_eq_nil rfl (isBlockCode_snakeCase pascal), checkPresent_eq_nil there,
      checkPresent_eq_nil about, fields, repeats, List.append_nil]

/-! ## The names -/

/-- The name of a valid block is told by its code and by the name of its template. -/
theorem pascalCase_cases (pascal : isPascalName name.toList) :
    pascalCase (snakeCase name) = name ∧ pascalCase (kebabCase name) = name :=
  ⟨pascalCase_separated rfl pascal, pascalCase_separated rfl pascal⟩

theorem point_notMem_kebabCase (pascal : isPascalName name.toList) :
    '.' ∉ (kebabCase name).toList := by
  rw [kebabCase, String.toList_ofList]
  intro held
  exact absurd ((forall_separated (show isWordGap '-' by rfl) pascal).2 _ held) (by decide)

/-- What stands before the extension of a file is told by its name. -/
theorem eq_of_append_extension {front frontToo extension extensionToo : String}
    (plain : '.' ∉ front.toList) (plainToo : '.' ∉ frontToo.toList)
    (same : front ++ "." ++ extension = frontToo ++ "." ++ extensionToo) : front = frontToo := by
  have chars := congrArg String.toList same
  simp only [String.toList_append, List.append_assoc] at chars
  have stems := congrArg (List.takeWhile (· != '.')) chars
  rw [show ".".toList = ['.'] from rfl, List.singleton_append, List.singleton_append] at stems
  rw [takeWhile_eq_front plain, takeWhile_eq_front plainToo] at stems
  exact String.toList_inj.mp stems

theorem tellsName_scaffold (pascal : isPascalName (pascalCase name).toList) :
    TellsName (scaffold name repeater) :=
  ⟨⟨_, rfl, (pascalCase_cases pascal).1⟩, ⟨_, rfl, (pascalCase_cases pascal).2⟩⟩

example : (scaffold "ABTest" false).code = "cpb_a_b_test" := by decide +kernel

theorem apart_scaffold {other : String} {repeaterToo : Bool}
    (pascal : isPascalName (pascalCase name).toList)
    (pascalToo : isPascalName (pascalCase other).toList)
    (differs : pascalCase name ≠ pascalCase other) :
    Apart (scaffold name repeater) (scaffold other repeaterToo) := by
  obtain ⟨ofSnake, ofKebab⟩ := pascalCase_cases pascal
  obtain ⟨ofSnakeToo, ofKebabToo⟩ := pascalCase_cases pascalToo
  have kebabs : kebabCase (pascalCase name) ≠ kebabCase (pascalCase other) := fun same =>
    differs (ofKebab.symm.trans ((congrArg pascalCase same).trans ofKebabToo))
  refine ⟨fun same => ?_, fun same => ?_, fun format formatToo same => ?_⟩
  · have snakes : snakeCase (pascalCase name) = snakeCase (pascalCase other) :=
      (String.append_right_inj _).mp same
    exact differs (ofSnake.symm.trans ((congrArg pascalCase snakes).trans ofSnakeToo))
  · exact kebabs ((String.append_left_inj _).mp same)
  · exact kebabs (eq_of_append_extension (point_notMem_kebabCase pascal)
      (point_notMem_kebabCase pascalToo) same)

/-- A new description is accepted exactly if its name in PascalCase is the name of a block. That
name is then told by the code and by the name of the template, so new descriptions of blocks with
different names share nothing that is derived from them. -/
theorem scaffold_names (name : String) (repeater : Bool) :
    ((scaffold name repeater).issues = [] ↔
      (pascalCase name).toList ∈ Pattern.blockName.matches') ∧
    ((scaffold name repeater).issues = [] → (scaffold name repeater).blockName = pascalCase name ∧
      TellsName (scaffold name repeater) ∧
      ∀ other repeaterToo, (scaffold other repeaterToo).issues = [] →
        (scaffold name repeater).blockName ≠ (scaffold other repeaterToo).blockName →
          Apart (scaffold name repeater) (scaffold other repeaterToo)) := by
  refine ⟨issues_scaffold_eq_nil_iff.trans Pattern.isPascalName_iff, fun valid => ?_⟩
  have pascal := issues_scaffold_eq_nil_iff.mp valid
  refine ⟨rfl, tellsName_scaffold pascal, fun other repeaterToo validToo differs => ?_⟩
  exact apart_scaffold pascal (issues_scaffold_eq_nil_iff.mp validToo) differs

theorem scaffold_names_test_and_hero :
    TellsName (scaffold "ABTest" true) ∧
      Apart (scaffold "ABTest" true) (scaffold "hero 2-go" false) := by
  have valid : (scaffold "ABTest" true).issues = [] := by decide +kernel
  have validToo : (scaffold "hero 2-go" false).issues = [] := by decide +kernel
  obtain ⟨-, tells, apart⟩ := (scaffold_names "ABTest" true).2 valid
  exact ⟨tells, apart "hero 2-go" false validToo (by decide +kernel)⟩

end BlockForge.Work
