/-
# What baking an archive leaves

The files of a description that breaks no rule have two names, since the one ends like a class
file and the other one like a template. So they can always be bundled, and all that is left to fail
is the file system: a directory that cannot be made, or an archive that cannot be written. Then no
file is altered. Otherwise the archive holds the names and the texts of exactly these files.
-/

import BlockForge.Proofs.Files.Content
import BlockForge.Proofs.Generate.ClassFile
import BlockForge.Work.Bake

namespace BlockForge.Generate

open BlockForge.Files

variable {block : Description}

def namedTexts (block : Description) : List (String × String) :=
  (files block).map fun file => (file.name, file.text)

/-- The name of a template is a stem of its characters and the ending. -/
theorem exists_templateStem (valid : block.issues = []) : ∃ stem : List Char,
    stem.all isKebabChar ∧ templateSuffix.isSuffixOf? block.template.toList = some stem := by
  have formed := (checked_of_issues valid).template
  rw [isTemplateName] at formed
  split at formed
  · exact ⟨_, (Bool.and_eq_true_iff.mp formed).2, ‹_›⟩
  · cases formed

theorem templateSuffix_isSuffix (valid : block.issues = []) :
    templateSuffix <:+ block.template.toList := by
  obtain ⟨stem, -, cut⟩ := exists_templateStem valid
  exact ⟨stem, List.isSuffixOf?_eq_some_iff_append_eq.mp cut⟩

/-- The two files of a description that breaks no rule have different names. -/
theorem classFileName_ne_template (valid : block.issues = []) :
    classFileName block ≠ block.template := by
  intro same
  have ending := templateSuffix_isSuffix valid
  rw [← same, classFileName, String.toList_append] at ending
  have short := List.suffix_or_suffix_of_suffix ending (List.suffix_append _ ".php".toList)
  revert short
  decide

/-- The files of a description that breaks no rule can be bundled. -/
theorem bundle_files (valid : block.issues = []) : bundle (files block) = .ok (namedTexts block) := by
  have differs := classFileName_ne_template valid
  simp [bundle, files, bundleAfter, namedTexts, Ne.symm differs, Except.map]

end BlockForge.Generate

namespace BlockForge.Work

open BlockForge.Files BlockForge.Generate

variable {block : Description} {tree after : FileTree} {directory : String}

/-- An archive stands at a path, and no other file was altered. -/
structure Archived (path : String) (entries : List (String × String)) (before after : FileTree) :
    Prop where
  alters : FileTree.AltersOnly [path] before after
  held : ∃ place, after.resolve path = .ok place ∧
    after.contentAt? place = some (.archive entries)

/-- An archive is written, or no file is altered. -/
theorem outcome_writeArchive (name : String) (entries : List (String × String))
    (directory : String) (tree : FileTree) :
    (∃ after, outcome (writeArchive name entries directory) tree =
      (.ok (join directory name), after) ∧
        Archived (join directory name) entries tree after) ∨
    ∃ fault after, outcome (writeArchive name entries directory) tree = (.error fault, after) ∧
      FileTree.AltersOnly [] tree after := by
  have mapped := Action.outcome_mapFault (ArchiveFault.directory directory)
    (makeDirectories directory) tree
  have start := altersOnly_makeDirectories directory tree
  rw [writeArchive]
  cases made : outcome (makeDirectories directory) tree with
  | mk result between =>
      rw [made] at mapped start
      cases result with
      | error fault => exact .inr ⟨_, between, outcome_bind_of_error mapped, start⟩
      | ok nothing =>
          rw [outcome_bind_of_ok mapped]
          dsimp only
          have writing := Action.outcome_mapFault (ArchiveFault.file (join directory name))
            (Action.change (·.write (join directory name) (.archive entries))) between
          cases written : between.write (join directory name) (.archive entries) with
          | error fault =>
              rw [Action.outcome_change_of_error written] at writing
              exact .inr ⟨_, between, outcome_bind_of_error writing, start⟩
          | ok after =>
              rw [Action.outcome_change_of_ok written] at writing
              obtain ⟨alters, held⟩ := FileTree.spec_of_write written
              have whole := (start.mono (List.nil_subset _)).trans alters
              exact .inl ⟨after, outcome_bind_of_ok writing, whole, held⟩

def archivePath (block : Description) (directory : String) : String :=
  join directory (archiveName block.template block.code)

/-- Baking an archive of a block writes all of it, or it alters no file. -/
def BakesWhole (block : Description) (directory : String) (tree : FileTree) : Prop :=
  (∃ after, outcome (bake block .archive directory) tree =
    (.ok ⟨block.blockName, block.code, block.warnings, .archived (archivePath block directory)⟩,
      after) ∧ Archived (archivePath block directory) (namedTexts block) tree after) ∨
  ∃ fault after, outcome (bake block .archive directory) tree =
    (.error (.notArchived fault), after) ∧ FileTree.AltersOnly [] tree after

theorem bakesWhole (valid : block.issues = []) (directory : String) (tree : FileTree) :
    BakesWhole block directory tree := by
  have delivery : deliver block .archive directory = (do
      let path ← (writeArchive (archiveName block.template block.code) (namedTexts block)
        directory).mapFault .notArchived
      return .archived path) := by
    rw [deliver, bundle_files valid]
  have mapped := Action.outcome_mapFault BakeFailure.notArchived
    (writeArchive (archiveName block.template block.code) (namedTexts block) directory) tree
  rw [BakesWhole, bake, delivery]
  rcases outcome_writeArchive (archiveName block.template block.code) (namedTexts block) directory
    tree with ⟨after, written, archived⟩ | ⟨fault, after, refused, kept⟩
  · rw [written] at mapped
    refine .inl ⟨after, ?_, archived⟩
    exact outcome_bind_of_ok (outcome_bind_of_ok mapped)
  · rw [refused] at mapped
    refine .inr ⟨fault, after, ?_, kept⟩
    exact outcome_bind_of_error (outcome_bind_of_error mapped)

end BlockForge.Work
