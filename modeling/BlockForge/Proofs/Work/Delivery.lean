/-
# What the deliveries of a block leave

The files of a description that breaks no rule have three names, with that of their archive: one
ends like a class file, one like a template, one like an archive, and each is the name of one thing
in a directory. So whatever the directory and whatever was there before, a delivery that succeeds
puts each file, or the archive of both, directly into that directory, and no file besides them
holds anything else than before. A preview shows the same files and leaves everything as it was.
-/

import BlockForge.Proofs.Files.Child
import BlockForge.Proofs.Work.Bake

namespace BlockForge.Generate

open BlockForge.Files

variable {block : Description} {name : String}

/-! ## Names -/

/-- A character of the names of generated files. -/
def isFileChar (c : Char) : Bool := c.isAlphanum || c == '-' || c == '.'

theorem isFileChar_of_isAlphanum {c : Char} (letter : c.isAlphanum) : isFileChar c := by
  rw [isFileChar, letter]
  rfl

theorem isFileChar_of_isKebabChar {c : Char} (kebab : isKebabChar c) : isFileChar c := by
  show ((c.isUpper || c.isLower || c.isDigit) || c == '-' || c == '.') = true
  simp only [isKebabChar, Bool.or_eq_true] at kebab ⊢
  tauto

/-- A name of such characters that is longer than two dots is the name of one thing. -/
theorem isName_of_isFileChar (chars : name.toList.all isFileChar) (long : 2 < name.length) :
    IsName name where
  inside c held := by
    have own := List.all_eq_true.mp chars c held
    rw [beq_eq_false_iff_ne]
    rintro rfl
    revert own
    decide
  named := by rintro rfl; revert long; decide
  ahead := by rintro rfl; revert long; decide
  notBack := by rintro rfl; revert long; decide

theorem notMem_of_isFileChar {c : Char} (chars : name.toList.all isFileChar)
    (other : isFileChar c = false) : c ∉ name.toList := by
  intro held
  rw [List.all_eq_true.mp chars c held] at other
  cases other

/-- The names of the files of a description that breaks no rule, and that of their archive. -/
structure FileNames (block : Description) : Prop where
  files : (files block).map (·.name) = [block.blockName ++ "Block.php", block.template]
  distinct : ((Generate.files block).map (·.name)).Nodup
  archive : ∃ stem, block.template = stem ++ ".tpl" ∧
    archiveName block.template block.code = stem ++ ".zip"
  inside : ∀ name ∈ archiveName block.template block.code :: (Generate.files block).map (·.name),
    IsName name ∧ '/' ∉ name.toList ∧ '\\' ∉ name.toList

theorem exists_stem (valid : block.issues = []) : ∃ stem : List Char, stem.all isKebabChar ∧
    block.template = String.ofList stem ++ ".tpl" ∧
      archiveName block.template block.code = String.ofList stem ++ ".zip" := by
  obtain ⟨stem, kebab, cut⟩ := exists_templateStem valid
  refine ⟨stem, kebab, ?_, ?_⟩
  · rw [← String.toList_inj, ← List.isSuffixOf?_eq_some_iff_append_eq.mp cut]
    simp [templateSuffix]
  · rw [archiveName, cut]

theorem all_isFileChar_append {stem : List Char} (kebab : stem.all isKebabChar) {ending : String}
    (chars : ending.toList.all isFileChar) :
    (String.ofList stem ++ ending).toList.all isFileChar := by
  rw [String.toList_append, String.toList_ofList, List.all_append, chars, Bool.and_true,
    List.all_eq_true]
  exact fun c held => isFileChar_of_isKebabChar (List.all_eq_true.mp kebab c held)

theorem fileNames (valid : block.issues = []) : FileNames block := by
  obtain ⟨stem, kebab, template, archive⟩ := exists_stem valid
  have ending (name ending : String) (long : 2 < ending.length) : 2 < (name ++ ending).length := by
    rw [String.length_append]
    omega
  have className : classFileName block = block.blockName ++ "Block.php" := by
    rw [classFileName, Description.className, String.append_assoc]
    rfl
  have named {name : String} (chars : name.toList.all isFileChar) (long : 2 < name.length) :
      IsName name ∧ '/' ∉ name.toList ∧ '\\' ∉ name.toList :=
    ⟨isName_of_isFileChar chars long, notMem_of_isFileChar chars rfl,
      notMem_of_isFileChar chars rfl⟩
  refine ⟨?_, ?_, ⟨_, template, archive⟩, ?_⟩
  · rw [files, List.map_cons, List.map_singleton, className]
  · rw [files, List.map_cons, List.map_singleton]
    simpa using classFileName_ne_template valid
  · intro name held
    simp only [files, List.map_cons, List.map_nil, List.mem_cons, List.not_mem_nil,
      or_false] at held
    rcases held with rfl | rfl | rfl
    · rw [archive]
      exact named (all_isFileChar_append kebab (by decide)) (ending _ _ (by decide))
    · have letters := isAlphanum_className (checked_of_issues valid).blockName
      rw [classFileName]
      refine named ?_ (ending _ _ (by decide))
      rw [String.toList_append, List.all_append, Bool.and_eq_true, List.all_eq_true]
      refine ⟨fun c held => ?_, by decide⟩
      exact isFileChar_of_isAlphanum (List.all_eq_true.mp letters c held)
    · rw [template]
      exact named (all_isFileChar_append kebab (by decide)) (ending _ _ (by decide))

end BlockForge.Generate

namespace BlockForge.Work

open BlockForge.Files BlockForge.Generate

variable {block : Description} {tree between after : FileTree} {directory : String}

/-! ## What is left -/

/-- Named files stand directly in a directory, and every other file is as it was. -/
structure Places (directory : String) (named : List (String × Content)) (before after : FileTree)
    (place : Place) : Prop where
  stands : after.StandsAt directory place
  held : ∀ file ∈ named, after.contentAt? (place ++ [file.1]) = some file.2
  others : ∀ other, (∀ file ∈ named, other ≠ place ++ [file.1]) →
    after.contentAt? other = before.contentAt? other
  grown : FileTree.Grown before after

/-- What paths into a directory lead to stands in that directory. -/
theorem exists_places {named : List (String × Content)} (nonempty : named ≠ [])
    (names : ∀ file ∈ named, IsName file.1)
    (alters : FileTree.AltersOnly (named.map fun file => join directory file.1) tree after)
    (held : ∀ file ∈ named, ∃ place, after.resolve (join directory file.1) = .ok place ∧
      after.contentAt? place = some file.2) : ∃ place, Places directory named tree after place := by
  obtain ⟨first, rest, rfl⟩ := List.exists_cons_of_ne_nil nonempty
  obtain ⟨own, leads, -⟩ := held first List.mem_cons_self
  obtain ⟨place, stands, -⟩ := FileTree.child_of_resolve_join (names first List.mem_cons_self) leads
  refine ⟨place, stands, fun file among => ?_, fun other apart => ?_, alters.grown⟩
  · obtain ⟨own, leads, holds⟩ := held file among
    obtain ⟨parent, standsToo, rfl⟩ := FileTree.child_of_resolve_join (names file among) leads
    rwa [stands.unique standsToo]
  · refine alters.files other fun path among leads => ?_
    obtain ⟨file, listed, rfl⟩ := List.mem_map.mp among
    obtain ⟨parent, standsToo, rfl⟩ := FileTree.child_of_resolve_join (names file listed) leads
    exact apart file listed (by rw [stands.unique standsToo])

/-- A file that was written is there, and no other file was altered. -/
theorem spec_of_outcome_write {file : OutputFile}
    (written : outcome (file.write directory) tree = (.ok (), after)) :
    FileTree.AltersOnly [join directory file.name] tree after ∧
      ∃ place, after.resolve (join directory file.name) = .ok place ∧
        after.contentAt? place = some (.text file.text) := by
  have finish {between : FileTree} (start : FileTree.AltersOnly [] tree between)
      (last : outcome (Action.change fun tree : FileTree =>
        tree.write (join directory file.name) (.text file.text)) between = (.ok (), after)) :
      FileTree.AltersOnly [join directory file.name] tree after ∧
        ∃ place, after.resolve (join directory file.name) = .ok place ∧
          after.contentAt? place = some (.text file.text) := by
    cases put : between.write (join directory file.name) (.text file.text) with
    | error fault =>
        rw [Action.outcome_change_of_error put] at last
        cases last
    | ok next =>
        rw [Action.outcome_change_of_ok put] at last
        obtain rfl : next = after := (Prod.mk.inj last).2
        obtain ⟨alters, held⟩ := FileTree.spec_of_write put
        exact ⟨(start.mono (List.nil_subset _)).trans alters, held⟩
  rw [OutputFile.write] at written
  cases parent : parent? (join directory file.name) with
  | none =>
      rw [parent] at written
      exact finish (FileTree.AltersOnly.refl [] tree) written
  | some path =>
      rw [parent] at written
      obtain ⟨nothing, between, made, last⟩ := exists_of_outcome_bind written
      exact finish ((altersOnly_makeDirectories path).of_outcome made) last

/-- Files with different names are written one beside the other. -/
theorem spec_of_outcome_writeFiles {files : List OutputFile}
    (names : ∀ file ∈ files, IsName file.name) (distinct : (files.map (·.name)).Nodup)
    {paths : List String}
    (written : outcome (writeFiles directory files) tree = (.ok paths, after)) :
    paths = files.map (fun file => join directory file.name) ∧
      FileTree.AltersOnly (files.map fun file => join directory file.name) tree after ∧
      ∀ file ∈ files, ∃ place, after.resolve (join directory file.name) = .ok place ∧
        after.contentAt? place = some (.text file.text) := by
  induction files generalizing tree paths with
  | nil =>
      obtain ⟨same, rfl⟩ := Prod.mk.inj written
      exact ⟨(Except.ok.inj same).symm, .refl _ _, by simp⟩
  | cons file rest ih =>
      rw [writeFiles] at written
      obtain ⟨nothing, between, first, last⟩ := exists_of_outcome_bind written
      obtain ⟨others, ending, later, done⟩ := exists_of_outcome_bind last
      obtain ⟨same, rfl⟩ := Prod.mk.inj done
      obtain ⟨apart, distinctRest⟩ := List.nodup_cons.mp distinct
      obtain ⟨start, place, leads, held⟩ := spec_of_outcome_write first
      obtain ⟨rfl, alters, heldRest⟩ :=
        ih (fun other among => names other (List.mem_cons_of_mem _ among)) distinctRest later
      refine ⟨(Except.ok.inj same).symm, ?_, ?_⟩
      · exact (start.mono (by simp)).trans (alters.mono (by simp))
      · intro other among
        rcases List.mem_cons.mp among with rfl | among
        · have leadsStill := alters.grown.resolve leads
          refine ⟨place, leadsStill, ?_⟩
          rw [alters.files place fun path listed leadsToo => ?_, held]
          obtain ⟨other, among, rfl⟩ := List.mem_map.mp listed
          obtain ⟨parent, -, own⟩ :=
            FileTree.child_of_resolve_join (names _ List.mem_cons_self) leadsStill
          obtain ⟨parentToo, -, ownToo⟩ :=
            FileTree.child_of_resolve_join (names other (List.mem_cons_of_mem _ among)) leadsToo
          have last : [other.name] = [_] := (List.append_inj' (ownToo.symm.trans own) rfl).2
          exact apart (List.mem_map.mpr ⟨other, among, (List.cons.inj last).1⟩)
        · exact heldRest other among

def fileContents (block : Description) : List (String × Content) :=
  (files block).map fun file => (file.name, .text file.text)

/-- Every delivery of a description that breaks no rule delivers the same two files and touches
nothing else. A preview changes nothing. If the files are written, both stand directly in the
directory with the texts that the preview shows; if they are bundled, an archive of exactly their
names and texts stands directly there, named after the template. Nothing else is altered in any
file, none of the names leaves the directory, and a bundle never holds a name twice. -/
theorem deliveries_agree (valid : block.issues = []) (directory : String) (tree : FileTree) :
    FileNames block ∧
    bundle (files block) = .ok (namedTexts block) ∧
    outcome (bake block .preview directory) tree =
      (.ok ⟨block.blockName, block.code, block.warnings, .previewed (files block)⟩, tree) ∧
    (∀ report after, outcome (bake block .files directory) tree = (.ok report, after) →
      report.delivered = .written ((files block).map fun file => join directory file.name) ∧
      ∃ place, Places directory (fileContents block) tree after place) ∧
    ∀ report after, outcome (bake block .archive directory) tree = (.ok report, after) →
      report.delivered = .archived (archivePath block directory) ∧
      ∃ place, Places directory
        [(archiveName block.template block.code, .archive (namedTexts block))] tree after place := by
  have named := fileNames valid
  refine ⟨named, bundle_files valid, rfl, fun report after baked => ?_, fun report after baked => ?_⟩
  · rw [bake, deliver, bind_assoc] at baked
    obtain ⟨paths, between, mapped, done⟩ := exists_of_outcome_bind baked
    obtain ⟨same, rfl⟩ := Prod.mk.inj done
    obtain rfl := Except.ok.inj same
    rw [Action.outcome_mapFault] at mapped
    cases written : outcome (writeFiles directory (files block)) tree with
    | mk result left =>
        rw [written] at mapped
        cases result with
        | error fault => cases mapped
        | ok listed =>
            obtain ⟨kept, rfl⟩ := Prod.mk.inj mapped
            obtain rfl := Except.ok.inj kept
            have names (file : OutputFile) (among : file ∈ files block) : IsName file.name :=
              (named.inside _ (List.mem_cons_of_mem _ (List.mem_map_of_mem among))).1
            obtain ⟨rfl, alters, held⟩ := spec_of_outcome_writeFiles names named.distinct written
            refine ⟨rfl, exists_places (List.cons_ne_nil _ _) ?_ ?_ ?_⟩
            · simpa [fileContents] using names
            · simpa [fileContents, Function.comp_def] using alters
            · simpa [fileContents] using held
  · rcases bakesWhole valid directory tree with ⟨left, whole, archived⟩ | ⟨fault, left, failed, -⟩
    · obtain ⟨same, rfl⟩ := Prod.mk.inj (whole.symm.trans baked)
      obtain rfl := Except.ok.inj same
      refine ⟨rfl, exists_places (List.cons_ne_nil _ _) ?_ archived.alters ?_⟩
      · simpa using (named.inside _ List.mem_cons_self).1
      · simpa [archivePath] using archived.held
    · rw [failed] at baked
      cases baked

/-- A block whose texts look like paths. -/
def noticeBlock : Description where
  blockName := "Notice"
  template := "notice.tpl"
  code := "cpb_notice"
  displayName := "../notice"
  about := "/notice"
  tab := Description.defaultTab
  icon := Description.defaultIcon
  hasRepeater := false
  fields := []
  repeater := none

/-- A directory that holds an earlier template and another file. -/
def crowdedTree : FileTree :=
  ⟨[(["out"], .directory), (["out", "notes"], .directory),
    (["out", "notice.tpl"], .file (.text "old")), (["out", "other.tpl"], .file (.text "kept"))], []⟩

/-- The files come to stand in the directory that a winding path leads to. The earlier template is
replaced and the other file kept. -/
theorem deliveries_agree_crowdedTree : noticeBlock.issues = [] ∧
    ∃ report after, outcome (bake noticeBlock .files "out/notes/..") crowdedTree =
      (.ok report, after) ∧
      Places "out/notes/.." (fileContents noticeBlock) crowdedTree after ["out"] ∧
      after.contentAt? ["out", "other.tpl"] = some (.text "kept") := by
  have valid : noticeBlock.issues = [] := by decide +kernel
  refine ⟨valid, ?_⟩
  obtain ⟨-, -, -, writes, -⟩ := deliveries_agree valid "out/notes/.." crowdedTree
  have succeeds : (outcome (bake noticeBlock .files "out/notes/..") crowdedTree).1.isOk := by
    decide +kernel
  cases baked : outcome (bake noticeBlock .files "out/notes/..") crowdedTree with
  | mk result after =>
      rw [baked] at succeeds
      cases result with
      | error failure => cases succeeds
      | ok report =>
          obtain ⟨-, place, places⟩ := writes report after baked
          have leads : crowdedTree.StandsAt "out/notes/.." ["out"] := by
            refine ⟨?_, ?_⟩ <;> decide +kernel
          obtain rfl : place = ["out"] :=
            places.stands.unique ⟨places.grown.base ▸ places.grown.walk leads.1,
              places.grown.directories _ leads.2⟩
          refine ⟨report, after, rfl, places, ?_⟩
          rw [places.others _ (by decide)]
          rfl

end BlockForge.Work
