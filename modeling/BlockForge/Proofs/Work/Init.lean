/-
# Starting a description

Whatever the files are, starting a description refuses a name that makes no block, leaves alone
what is at the path of the new file, or puts one file there, which is loaded as the new description
whatever its format is. The directories that lead to the file are made on the way, and nothing else
is altered.

What is at the path is asked for before these directories are made. A path that goes through a
missing directory and leads back out of it leads nowhere then, and once the directory has been made
it may lead to a file, which is replaced.
-/

import BlockForge.Proofs.Block.Rereading
import BlockForge.Proofs.Files.Parent
import BlockForge.Proofs.Toml.Tree
import BlockForge.Proofs.Work.Delivery
import BlockForge.Proofs.Work.Scaffold
import BlockForge.Work.Check

namespace BlockForge.Work

open BlockForge.Files BlockForge.Generate BlockForge.Json BlockForge.Text

variable {name : String} {repeater : Bool} {format : Format} {directory : String}
variable {block : Description} {tree between after : FileTree} {place : Place}

/-! ## The text of the file -/

/-- The file of a description is loaded as the description, if its numbers are read as they are. -/
theorem ofText_fileText (valid : block.issues = []) (fits : block.Fits)
    (settled : ∀ x ∈ block.numbers, x.isFinite ∧ x.reread = x) (format : Format) :
    Description.ofText format (fileText block format) = .ok block := by
  cases format with
  | json =>
      have loaded := Description.ofJsonText_prettyText_blanks rearranging_reread valid fits
        fits.sized.1 rfl (List.forall_mem_singleton.mpr (show Cursor.isSpace '\n' from rfl))
      rw [Description.withFloats_eq_self_iff.mpr settled] at loaded
      exact loaded
  | toml =>
      obtain ⟨entries, read, data, written, found, holds⟩ :=
        Toml.exists_readDocument?_documentOf (by decide : 6 ≤ Toml.greatestDepth)
          (fits.nested Toml.tables_nesting)
      have text : Toml.documentOf block.value = Toml.documentChars entries := written
      have loaded : Block.readDescription .table (Toml.Value.table read).node = .ok block := by
        rw [Block.readDescription_eq keeping_tabled fits (Origin.admits_of_unbounded rfl 6) holds,
          Description.withNumbers_some]
      rw [Description.ofText, fileText, Description.text, Description.ofTomlText,
        String.toList_ofList, text, found]
      dsimp only
      rw [loaded]
      dsimp only
      rw [Description.accepted, valid]
      rfl

/-- A new description has nothing but texts. -/
theorem kind_of_mem_scaffold {field : Field} (held : field ∈ (scaffold name repeater).allFields) :
    field.kind = .text none := by
  cases repeater <;> simp_all [scaffold, Description.allFields, starterField, starterRepeater]

theorem ofText_fileText_scaffold (valid : (scaffold name repeater).issues = []) (format : Format) :
    Description.ofText format (fileText (scaffold name repeater) format) =
      .ok (scaffold name repeater) := by
  refine ofText_fileText valid (fun field held => ?_) (fun x held => ?_) format
  · rw [kind_of_mem_scaffold held]
    trivial
  · obtain ⟨field, among, own⟩ := List.mem_flatMap.mp held
    rw [kind_of_mem_scaffold among] at own
    cases own

/-! ## Files that are written where nothing is -/

/-- A file was put into a directory where nothing was, and no other file was altered. The
directories that lead to it were made if they were missing. Something else can only have stood at
its place if the path of the file led nowhere before, which in a well-formed tree takes a path that
leads back. -/
structure Added (file : OutputFile) (directory : String) (before after : FileTree) (place : Place) :
    Prop where
  base : after.base = before.base
  stands : after.StandsAt directory place
  leads : after.resolve (join directory file.name) = .ok (place ++ [file.name])
  held : after.get? (place ++ [file.name]) = some (.file (.text file.text))
  others : ∀ other, other ≠ place ++ [file.name] → after.get? other = before.get? other ∨
    (before.get? other = none ∧ after.get? other = some .directory ∧
      other ∈ placesOf before.base (join directory file.name))
  fresh : before.get? (place ++ [file.name]) = none ∨
    ((∃ fault, before.resolve (join directory file.name) = .error fault) ∧
      (before.WellFormed → ".." ∈ names directory))

/-- What is left where a file was to be written: the directories that lead to it, and the file
wherever its path leads to then. -/
inductive Wrote (file : OutputFile) (directory : String) (before : FileTree) :
    Except FileFault Unit → FileTree → Prop where
  | failed {after : FileTree} (fault : FileFault)
      (start : before.Extended (placesOf before.base (join directory file.name)) after) :
      Wrote file directory before (.error fault) after
  | done {between : FileTree} {place : Place}
      (start : before.Extended (placesOf before.base (join directory file.name)) between)
      (takes : between.TakesFile (join directory file.name) place) :
      Wrote file directory before (.ok ()) (between.set place (.file (.text file.text)))

variable {file : OutputFile}

theorem wrote_of_outcome_write (isName : IsName file.name) {result : Except FileFault Unit}
    (ended : outcome (file.write directory) tree = (result, after)) :
    Wrote file directory tree result after := by
  have finish {between : FileTree}
      (start : tree.Extended (placesOf tree.base (join directory file.name)) between)
      (last : outcome (Action.change fun tree : FileTree =>
        tree.write (join directory file.name) (.text file.text)) between = (result, after)) :
      Wrote file directory tree result after := by
    cases put : between.write (join directory file.name) (.text file.text) with
    | error fault =>
        rw [Action.outcome_change_of_error put] at last
        obtain ⟨rfl, rfl⟩ := Prod.mk.inj last
        exact .failed fault start
    | ok next =>
        rw [Action.outcome_change_of_ok put] at last
        obtain ⟨rfl, rfl⟩ := Prod.mk.inj last
        obtain ⟨place, takes, rfl⟩ := FileTree.takesFile_of_write_join isName put
        exact .done start takes
  rw [OutputFile.write] at ended
  cases outer : parent? (join directory file.name) with
  | none =>
      rw [outer] at ended
      exact finish (.refl _ tree) ended
  | some parent =>
      rw [outer] at ended
      cases made : outcome (makeDirectories parent) tree with
      | mk first between =>
          have start := (extended_of_outcome_makeDirectories made).mono
            (placesOf_parent_subset tree.base outer)
          cases first with
          | error fault =>
              have failed := (outcome_bind_of_error made).symm.trans ended
              obtain ⟨rfl, rfl⟩ := Prod.mk.inj failed
              exact .failed fault start
          | ok nothing => exact finish start ((outcome_bind_of_ok made).symm.trans ended)

/-- What stood at the place of a file that was not found was not to be found by its path. -/
theorem fresh_of_takesFile (isName : IsName file.name)
    (gone : tree.isThere (join directory file.name) = false)
    (start : tree.Extended (placesOf tree.base (join directory file.name)) between)
    (takes : between.TakesFile (join directory file.name) place) :
    tree.get? place = none ∨ ((∃ fault, tree.resolve (join directory file.name) = .error fault) ∧
      (tree.WellFormed → ".." ∈ names directory)) := by
  cases there : tree.get? place with
  | none => exact .inl rfl
  | some entry =>
      -- In neither of these cases does the path lead to the place before the directories are made.
      have lost (leads : tree.resolve (join directory file.name) = .ok place) : False := by
        rw [FileTree.get?_of_isThere_eq_false isName leads gone] at there
        cases there
      refine .inr ⟨?_, fun wellFormed => ?_⟩
      · cases leads : tree.resolve (join directory file.name) with
        | error fault => exact ⟨fault, rfl⟩
        | ok other =>
            obtain rfl := Except.ok.inj ((start.grown.resolve leads).symm.trans takes.leads)
            exact (lost leads).elim
      · by_contra forward
        have onwards : ".." ∉ names (join directory file.name) := by
          rw [isName.names_join, List.mem_append, List.mem_singleton, not_or]
          exact ⟨forward, isName.notBack.symm⟩
        obtain ⟨-, -, walked, -⟩ := FileTree.resolve_eq_ok_iff.mp takes.leads
        rw [start.base] at walked
        exact lost (FileTree.resolve_of_walk takes.leads takes.free
          (wellFormed.walk_of_there onwards walked there))

/-- A file that was not there and was written was added. -/
theorem exists_added (isName : IsName file.name)
    (gone : tree.isThere (join directory file.name) = false)
    (written : outcome (file.write directory) tree = (.ok (), after)) :
    ∃ place, Added file directory tree after place := by
  cases wrote_of_outcome_write isName written with
  | @done between whole start takes =>
      obtain ⟨place, stands, rfl⟩ := FileTree.child_of_resolve_join isName takes.leads
      have alike := takes.alike_set (.text file.text)
      refine ⟨place, start.base, ?_, ?_, ?_, fun other apart => ?_, ?_⟩
      · exact ⟨alike.grown.walk stands.1, alike.grown.directories place stands.2⟩
      · exact alike.grown.resolve takes.leads
      · rw [takes.get?_set, if_pos rfl]
      · rw [takes.get?_set, if_neg apart]
        exact start.kept other
      · exact fresh_of_takesFile isName gone start takes

/-! ## The file of a new description -/

theorem isName_descriptionFile (pascal : isPascalName block.blockName.toList) (format : Format) :
    IsName (descriptionFile block format).name := by
  obtain ⟨-, kebab⟩ := forall_separated (show isWordGap '-' by rfl) pascal
  have chars : (kebabCase block.blockName ++ ("." ++ format.name)).toList.all isFileChar :=
    all_isFileChar_append (List.all_eq_true.mpr kebab) (by cases format <;> decide)
  have long : 2 < (kebabCase block.blockName ++ ("." ++ format.name)).length := by
    have ending : ("." ++ format.name).length = 5 := by cases format <;> decide
    rw [String.length_append, ending]
    omega
  rw [descriptionFile, String.append_assoc]
  exact isName_of_isFileChar chars long

/-- The extension of the file of a description tells its format. -/
theorem ofPath_descriptionFile (pascal : isPascalName block.blockName.toList) (format : Format)
    (directory : String) :
    Format.ofPath (join directory (descriptionFile block format).name) = .ok format := by
  have named : kebabCase block.blockName ≠ "" := by
    have there := (forall_separated (show isWordGap '-' by rfl) pascal).1
    rw [kebabCase, ← String.toList_inj.ne, String.toList_ofList]
    exact there
  have ending := (isName_descriptionFile pascal format).extension_join named
    (show '.' ∉ format.name.toList by cases format <;> decide) directory
  have known : Format.ofName? format.name = some format := by cases format <;> decide +kernel
  unfold Format.ofPath
  dsimp only [descriptionFile]
  rw [ending, known]

theorem loadFile_eq_ofText {path text : String} (known : Format.ofPath path = .ok format)
    (read : tree.readText path = .ok text) :
    loadFile tree path = Description.ofText format text := by
  rw [loadFile, known]
  simp only [bind, Except.bind, read]

/-- The file of a new description is loaded as this description. -/
theorem Added.loadFile_eq (valid : (scaffold name repeater).issues = [])
    (added : Added (descriptionFile (scaffold name repeater) format) directory tree after place) :
    loadFile after (join directory (descriptionFile (scaffold name repeater) format).name) =
      .ok (scaffold name repeater) := by
  have pascal := (checked_of_issues valid).blockName
  have takes := FileTree.takesFile_join (isName_descriptionFile pascal format) added.leads
    (by rw [added.held]; simp)
  rw [loadFile_eq_ofText (ofPath_descriptionFile pascal format directory)
    (takes.readText_of_held added.held)]
  exact ofText_fileText_scaffold valid format

/-! ## Starting -/

def startPath (name : String) (repeater : Bool) (format : Format) (directory : String) : String :=
  join directory (descriptionFile (scaffold name repeater) format).name

theorem outcome_init_of_broken (broken : (scaffold name repeater).issues ≠ []) :
    outcome (init name repeater format directory) tree =
      (.error (.badName name (scaffold name repeater).issues), tree) := by
  have some : (scaffold name repeater).issues.isEmpty = false := by simpa using broken
  rw [init]
  simp only [some]
  rfl

/-- Starting a description with a valid name comes to what writing its file comes to. -/
theorem outcome_init_of_valid (valid : (scaffold name repeater).issues = [])
    {result : Except FileFault WriteResult}
    (ended : outcome ((descriptionFile (scaffold name repeater) format).writeIfMissing directory)
      tree = (result, after)) :
    outcome (init name repeater format directory) tree =
      ((result.mapError .notWritten).map fun result =>
        ⟨startPath name repeater format directory, result⟩, after) := by
  have mapped := Action.outcome_mapFault InitFailure.notWritten
    ((descriptionFile (scaffold name repeater) format).writeIfMissing directory) tree
  rw [ended] at mapped
  rw [init]
  simp only [valid]
  cases result with
  | error fault => exact outcome_bind_of_error mapped
  | ok result => exact outcome_bind_of_ok mapped

theorem outcome_writeIfMissing_of_there {file : OutputFile}
    (there : tree.isThere (join directory file.name)) :
    outcome (file.writeIfMissing directory) tree = (.ok .skipped, tree) := by
  rw [OutputFile.writeIfMissing, outcome_bind_of_ok (Action.outcome_look _ tree), there]
  rfl

theorem outcome_writeIfMissing_of_gone {file : OutputFile}
    (gone : tree.isThere (join directory file.name) = false) :
    outcome (file.writeIfMissing directory) tree =
      outcome (file.write directory >>= fun _ => pure .written) tree := by
  rw [OutputFile.writeIfMissing, outcome_bind_of_ok (Action.outcome_look _ tree), gone]
  rfl

theorem outcome_init_of_there (valid : (scaffold name repeater).issues = [])
    (there : tree.isThere (startPath name repeater format directory)) :
    outcome (init name repeater format directory) tree =
      (.ok ⟨startPath name repeater format directory, .skipped⟩, tree) :=
  outcome_init_of_valid valid (outcome_writeIfMissing_of_there there)

theorem outcome_init_of_gone (valid : (scaffold name repeater).issues = [])
    (gone : tree.isThere (startPath name repeater format directory) = false) :
    (∃ fault after, outcome (init name repeater format directory) tree =
        (.error (.notWritten fault), after) ∧
      tree.Extended (placesOf tree.base (startPath name repeater format directory)) after) ∨
    ∃ after place, outcome (init name repeater format directory) tree =
        (.ok ⟨startPath name repeater format directory, .written⟩, after) ∧
      Added (descriptionFile (scaffold name repeater) format) directory tree after place ∧
      loadFile after (startPath name repeater format directory) = .ok (scaffold name repeater) := by
  have isName := isName_descriptionFile (checked_of_issues valid).blockName format
  have missing := outcome_writeIfMissing_of_gone gone
  cases written : outcome ((descriptionFile (scaffold name repeater) format).write directory)
      tree with
  | mk result after =>
      cases result with
      | error fault =>
          refine .inl ⟨fault, after, ?_, ?_⟩
          · exact outcome_init_of_valid valid (missing.trans (outcome_bind_of_error written))
          · cases wrote_of_outcome_write isName written with
            | failed fault start => exact start
      | ok nothing =>
          obtain ⟨place, added⟩ := exists_added isName gone written
          refine .inr ⟨after, place, ?_, added, added.loadFile_eq valid⟩
          exact outcome_init_of_valid valid (missing.trans (outcome_bind_of_ok written))

/-- Starting a description comes to one of four things, whatever the files are. The name makes no
block, and nothing is altered. Something is at the path of the file, and nothing is altered. The
file cannot be written, and at most directories on its way come up. Or the file is added, and it is
loaded as the new description. -/
theorem init_cases (name : String) (repeater : Bool) (format : Format) (directory : String)
    (tree : FileTree) :
    ((scaffold name repeater).issues ≠ [] →
      outcome (init name repeater format directory) tree =
        (.error (.badName name (scaffold name repeater).issues), tree)) ∧
    ((scaffold name repeater).issues = [] →
      tree.isThere (startPath name repeater format directory) = true →
      outcome (init name repeater format directory) tree =
        (.ok ⟨startPath name repeater format directory, .skipped⟩, tree)) ∧
    ((scaffold name repeater).issues = [] →
      tree.isThere (startPath name repeater format directory) = false →
      (∃ fault after, outcome (init name repeater format directory) tree =
          (.error (.notWritten fault), after) ∧
        tree.Extended (placesOf tree.base (startPath name repeater format directory)) after) ∨
      ∃ after place, outcome (init name repeater format directory) tree =
          (.ok ⟨startPath name repeater format directory, .written⟩, after) ∧
        Added (descriptionFile (scaffold name repeater) format) directory tree after place ∧
        loadFile after (startPath name repeater format directory) = .ok (scaffold name repeater)) :=
  ⟨outcome_init_of_broken, outcome_init_of_there, outcome_init_of_gone⟩

/-- A directory with a file that is named like that of a new description. -/
def takenTree : FileTree := ⟨[(["hero.json"], .file (.text "mine"))], []⟩

theorem init_cases_takenTree :
    ∃ after place, outcome (init "hero" false .toml "out") takenTree =
        (.ok ⟨"out/hero.toml", .written⟩, after) ∧
      Added (descriptionFile (scaffold "hero" false) .toml) "out" takenTree after place ∧
      loadFile after "out/hero.toml" = .ok (scaffold "hero" false) := by
  have valid : (scaffold "hero" false).issues = [] := by decide +kernel
  have path : startPath "hero" false .toml "out" = "out/hero.toml" := by decide +kernel
  have gone : takenTree.isThere (startPath "hero" false .toml "out") = false := by decide +kernel
  have succeeds : (outcome (init "hero" false .toml "out") takenTree).1.isOk := by decide +kernel
  rcases (init_cases "hero" false .toml "out" takenTree).2.2 valid gone with
    ⟨fault, after, failed, -⟩ | added
  · rw [failed] at succeeds
    cases succeeds
  · rwa [path] at added

/-- A file is replaced where its path goes through a directory that is missing. -/
theorem exists_replaced :
    ∃ report after, takenTree.WellFormed ∧
      takenTree.contentAt? ["hero.json"] = some (.text "mine") ∧
      outcome (init "hero" false .json "new/..") takenTree = (.ok report, after) ∧
      after.contentAt? ["hero.json"] ≠ some (.text "mine") := by
  have succeeds : (outcome (init "hero" false .json "new/..") takenTree).1.isOk := by
    decide +kernel
  have altered : (outcome (init "hero" false .json "new/..") takenTree).2.contentAt?
      ["hero.json"] ≠ some (.text "mine") := by decide +kernel
  have wellFormed : takenTree.WellFormed := by
    intro listed held
    rw [List.mem_singleton.mp held]
    rfl
  cases ended : outcome (init "hero" false .json "new/..") takenTree with
  | mk result after =>
      rw [ended] at succeeds altered
      cases result with
      | error failure => cases succeeds
      | ok report => exact ⟨report, after, wellFormed, rfl, rfl, altered⟩

end BlockForge.Work
