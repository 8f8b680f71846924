/-
# What operations leave of a tree

A tree is well formed if whatever it lists lies in a directory. Then a file has nothing below it,
so taking a file out takes out nothing else.

What a path leads to depends on directories only. Operations on files leave all directories as they
are, so a path that a file can be written at stays one. This is said once, as a property of a path
in a tree: it holds exactly where a write succeeds, and it is kept between trees that have the same
directories. What an operation gives is then an equation.
-/

import BlockForge.Files.Tree
import Mathlib.Data.List.Induction

namespace BlockForge.Files.FileTree

variable {tree before after : FileTree} {place other : Place} {entry : Entry} {path : String}
variable {content : Content}

/-! ## Places -/

theorem get?_of_named (named : place ≠ []) :
    tree.get? place = (tree.entries.find? (·.1 == place)).map (·.2) := by
  rw [get?, if_neg]
  simpa using named

theorem ne_root_of_free (free : tree.get? place ≠ some .directory) : place ≠ [] := by
  rintro rfl
  exact free rfl

/-- What is sought and was kept is found as before. -/
theorem find?_filter_of_kept {α : Type} {kept sought : α → Bool} (all : ∀ x, sought x → kept x)
    (entries : List α) : (entries.filter kept).find? sought = entries.find? sought := by
  rw [List.find?_filter]
  congr 1
  funext x
  by_cases found : sought x
  · simp [found, all x found]
  · simp [found]

/-- What is sought and was not kept is not found. -/
theorem find?_filter_of_dropped {α : Type} {kept sought : α → Bool} (all : ∀ x, sought x → !kept x)
    (entries : List α) : (entries.filter kept).find? sought = none := by
  rw [List.find?_eq_none]
  intro x held found
  have dropped := all x found
  rw [(List.mem_filter.mp held).2] at dropped
  cases dropped

theorem get?_set (named : place ≠ []) (other : Place) :
    (tree.set place entry).get? other = if other = place then some entry else tree.get? other := by
  by_cases root : other = []
  · subst root
    rw [if_neg (Ne.symm named)]
    rfl
  · rw [get?_of_named root, get?_of_named root, set, List.find?_append]
    by_cases same : other = place
    · subst same
      rw [find?_filter_of_dropped (by simp), if_pos rfl]
      simp
    · have last : [(place, entry)].find? (·.1 == other) = none := by
        simp [Ne.symm same]
      rw [find?_filter_of_kept, last, Option.or_none, if_neg same]
      intro listed found
      rw [beq_iff_eq] at found
      rw [bne_iff_ne, found]
      exact same

/-- Everything that is listed lies in a directory. -/
def WellFormed (tree : FileTree) : Prop :=
  ∀ listed ∈ tree.entries, tree.get? listed.1.dropLast = some .directory

theorem mem_entries_of_get? (named : place ≠ []) (there : tree.get? place = some entry) :
    (place, entry) ∈ tree.entries := by
  rw [get?_of_named named, Option.map_eq_some_iff] at there
  obtain ⟨listed, found, rfl⟩ := there
  have same : listed.1 = place := by simpa using List.find?_some found
  rw [← same]
  exact List.mem_of_find?_eq_some found

theorem WellFormed.above (wellFormed : tree.WellFormed) (there : tree.get? place = some entry) :
    tree.get? place.dropLast = some .directory := by
  by_cases root : place = []
  · rw [root]
    rfl
  · exact wellFormed (place, entry) (mem_entries_of_get? root there)

/-- Whatever has something below it is a directory. -/
theorem WellFormed.directory_of_below (wellFormed : tree.WellFormed) {rest : Place}
    (further : rest ≠ []) (there : tree.get? (place ++ rest) = some entry) :
    tree.get? place = some .directory := by
  induction rest using List.reverseRecOn generalizing entry with
  | nil => exact absurd rfl further
  | append_singleton rest last ih =>
      have above := wellFormed.above there
      rw [← List.append_assoc, List.dropLast_concat] at above
      by_cases next : rest = []
      · rw [next, List.append_nil] at above
        exact above
      · exact ih next above

/-- Taking out a file takes out nothing else. -/
theorem WellFormed.get?_erase (wellFormed : tree.WellFormed)
    (held : tree.get? place = some (.file content)) (other : Place) :
    (tree.erase place).get? other = if other = place then none else tree.get? other := by
  have named : place ≠ [] := by
    rintro rfl
    cases held
  by_cases root : other = []
  · subst root
    rw [if_neg (Ne.symm named)]
    rfl
  · rw [get?_of_named root, get?_of_named root, erase]
    by_cases within : place.isPrefixOf other
    · rw [find?_filter_of_dropped (by simp_all)]
      obtain ⟨rest, rfl⟩ := List.isPrefixOf_iff_prefix.mp within
      by_cases further : rest = []
      · rw [further, List.append_nil, if_pos rfl]
        rfl
      · rw [if_neg (by simpa using further), ← get?_of_named root]
        cases there : tree.get? (place ++ rest) with
        | none => rfl
        | some entry =>
            rw [wellFormed.directory_of_below further there] at held
            cases held
    · have differs : other ≠ place := by
        rintro rfl
        exact within (List.isPrefixOf_iff_prefix.mpr (List.prefix_refl other))
      rw [find?_filter_of_kept, if_neg differs]
      intro listed found
      rw [beq_iff_eq] at found
      show (!place.isPrefixOf listed.1) = true
      rw [found, Bool.eq_false_iff.mpr within]
      rfl

theorem WellFormed.set (wellFormed : tree.WellFormed) (free : tree.get? place ≠ some .directory)
    (above : tree.get? place.dropLast = some .directory) (entry : Entry) :
    (tree.set place entry).WellFormed := by
  have kept {other : Place} (there : tree.get? other = some .directory) :
      (tree.set place entry).get? other = some .directory := by
    rw [get?_set (ne_root_of_free free), if_neg, there]
    rintro rfl
    exact free there
  intro listed held
  rcases List.mem_append.mp held with before | last
  · exact kept (wellFormed listed ((List.mem_filter.mp before).1))
  · rw [List.mem_singleton.mp last]
    exact kept above

theorem WellFormed.erase (wellFormed : tree.WellFormed)
    (held : tree.get? place = some (.file content)) : (tree.erase place).WellFormed := by
  intro listed among
  have above := wellFormed listed ((List.mem_filter.mp among).1)
  rw [wellFormed.get?_erase held, if_neg, above]
  intro same
  rw [same, held] at above
  cases above

/-! ## Directories -/

/-- The directories of a tree are directories of another one, too. -/
structure Grown (before after : FileTree) : Prop where
  base : after.base = before.base
  directories : ∀ place, before.get? place = some .directory → after.get? place = some .directory

/-- Two trees have the same directories. -/
structure Alike (before after : FileTree) : Prop where
  grown : Grown before after
  shrunk : Grown after before

theorem Alike.refl (tree : FileTree) : Alike tree tree :=
  ⟨⟨rfl, fun _ there => there⟩, ⟨rfl, fun _ there => there⟩⟩

theorem Alike.symm (alike : Alike before after) : Alike after before :=
  ⟨alike.shrunk, alike.grown⟩

theorem grown_set (free : tree.get? place ≠ some .directory) (entry : Entry) :
    Grown tree (tree.set place entry) where
  base := rfl
  directories other there := by
    rw [get?_set (ne_root_of_free free), if_neg, there]
    rintro rfl
    exact free there

theorem alike_set (free : tree.get? place ≠ some .directory) (content : Content) :
    Alike tree (tree.set place (.file content)) where
  grown := grown_set free _
  shrunk := by
    refine ⟨rfl, fun other there => ?_⟩
    rw [get?_set (ne_root_of_free free)] at there
    split at there
    · cases there
    · exact there

theorem WellFormed.alike_erase (wellFormed : tree.WellFormed)
    (held : tree.get? place = some (.file content)) : Alike tree (tree.erase place) where
  grown := by
    refine ⟨rfl, fun other there => ?_⟩
    rw [wellFormed.get?_erase held, if_neg, there]
    rintro rfl
    rw [held] at there
    cases there
  shrunk := by
    refine ⟨rfl, fun other there => ?_⟩
    rw [wellFormed.get?_erase held] at there
    split at there
    · cases there
    · exact there

/-! ## Where paths lead -/

theorem directoryPlace_eq_ok_iff :
    tree.directoryPlace place = .ok other ↔ place = other ∧ tree.get? place = some .directory := by
  rw [directoryPlace]
  split <;> simp_all

/-- A name is only looked up in a directory. Two dots lead back, and every other name that is not
too long leads on. -/
theorem step_eq_ok_iff {name : String} : tree.step place name = .ok other ↔
    tree.get? place = some .directory ∧ (name = ".." ∧ other = place.dropLast ∨
      name ≠ ".." ∧ name.utf8ByteSize ≤ 255 ∧ other = place ++ [name]) := by
  rw [step]
  cases found : tree.directoryPlace place with
  | error fault =>
      have absent : tree.get? place ≠ some .directory := by
        intro there
        rw [directoryPlace_eq_ok_iff.mpr ⟨rfl, there⟩] at found
        cases found
      simp [absent]
  | ok reached =>
      obtain ⟨rfl, there⟩ := directoryPlace_eq_ok_iff.mp found
      dsimp only
      split
      · simp_all [eq_comm]
      · split
        · rename_i long
          simp_all [Nat.not_le_of_lt long]
        · simp_all [eq_comm]

theorem walk_cons_eq_ok_iff {name : String} {rest : List String} :
    tree.walk place (name :: rest) = .ok other ↔
      ∃ next, tree.step place name = .ok next ∧ tree.walk next rest = .ok other := by
  rw [walk]
  cases tree.step place name <;> simp

/-- The last name is looked up where the names before it lead. -/
theorem walk_concat_eq_ok_iff {front : List String} {last : String} :
    tree.walk place (front ++ [last]) = .ok other ↔
      ∃ parent, tree.walk place front = .ok parent ∧ tree.step parent last = .ok other := by
  induction front generalizing place with
  | nil =>
      rw [List.nil_append, walk_cons_eq_ok_iff]
      simp [walk]
  | cons name front ih =>
      simp only [List.cons_append, walk_cons_eq_ok_iff, ih]
      constructor
      · rintro ⟨next, stepped, parent, walked, last⟩
        exact ⟨parent, ⟨next, stepped, walked⟩, last⟩
      · rintro ⟨parent, ⟨next, stepped, walked⟩, last⟩
        exact ⟨next, stepped, parent, walked, last⟩

/-- A path leads where its names lead, and to a directory if it ends in a single dot. -/
theorem resolve_eq_ok_iff : tree.resolve path = .ok place ↔
    path.toList.contains '\x00' = false ∧ path ≠ "" ∧
      tree.walk (if isAbsolute path then [] else tree.base) (names path) = .ok place ∧
        (endsInDot path → tree.get? place = some .directory) := by
  rw [resolve]
  split
  · simp_all
  · split
    · simp_all
    · cases walked : tree.walk (if isAbsolute path then [] else tree.base) (names path) with
      | error fault => simp
      | ok reached =>
          dsimp only
          split
          · rw [directoryPlace_eq_ok_iff]
            simp_all
          · simp_all

namespace Grown

variable (grown : Grown before after)

include grown

theorem step {name : String} (leads : before.step place name = .ok other) :
    after.step place name = .ok other := by
  rw [step_eq_ok_iff] at leads ⊢
  exact ⟨grown.directories place leads.1, leads.2⟩

theorem walk {names : List String} (leads : before.walk place names = .ok other) :
    after.walk place names = .ok other := by
  induction names generalizing place with
  | nil => exact leads
  | cons name rest ih =>
      obtain ⟨next, stepped, onwards⟩ := walk_cons_eq_ok_iff.mp leads
      exact walk_cons_eq_ok_iff.mpr ⟨next, grown.step stepped, ih onwards⟩

/-- A path leads to the same place if there are more directories. -/
theorem resolve (leads : before.resolve path = .ok place) : after.resolve path = .ok place := by
  obtain ⟨clean, named, walked, dotted⟩ := resolve_eq_ok_iff.mp leads
  rw [← grown.base] at walked
  exact resolve_eq_ok_iff.mpr
    ⟨clean, named, grown.walk walked, fun ends => grown.directories place (dotted ends)⟩

end Grown

/-! ## Paths of directories -/

theorem isDirectoryAt_iff : tree.isDirectoryAt path ↔
    ∃ place, tree.resolve path = .ok place ∧ tree.get? place = some .directory := by
  rw [isDirectoryAt, entryAt]
  cases found : tree.resolve path with
  | error fault => simp
  | ok place =>
      cases there : tree.get? place with
      | none => simp [there]
      | some entry =>
          cases entry with
          | directory => simp [there]
          | file content => cases ends : namesDirectory path <;> simp [there]

theorem Grown.isDirectoryAt (grown : Grown before after) (there : before.isDirectoryAt path) :
    after.isDirectoryAt path := by
  obtain ⟨place, leads, directory⟩ := isDirectoryAt_iff.mp there
  exact isDirectoryAt_iff.mpr ⟨place, grown.resolve leads, grown.directories place directory⟩

/-- A directory is not made where one is. -/
theorem makeDirectory_of_isDirectoryAt (there : tree.isDirectoryAt path) :
    tree.makeDirectory path = .error .alreadyThere := by
  obtain ⟨place, leads, directory⟩ := isDirectoryAt_iff.mp there
  rw [makeDirectory, leads]
  dsimp only
  rw [directory]

/-- A directory is made in a directory, where nothing is. -/
theorem makeDirectory_eq_ok_iff : tree.makeDirectory path = .ok after ↔
    ∃ place, tree.resolve path = .ok place ∧ tree.get? place = none ∧
      tree.get? place.dropLast = some .directory ∧ tree.set place .directory = after := by
  rw [makeDirectory]
  cases leads : tree.resolve path with
  | error fault => simp
  | ok place =>
      cases there : tree.get? place with
      | some entry => simp [there]
      | none => by_cases above : tree.get? place.dropLast = some .directory <;> simp [there, above]

/-- A directory that was made is there. -/
theorem WellFormed.makeDirectory (wellFormed : tree.WellFormed)
    (made : tree.makeDirectory path = .ok after) : after.WellFormed ∧ after.isDirectoryAt path := by
  obtain ⟨place, leads, absent, above, rfl⟩ := makeDirectory_eq_ok_iff.mp made
  have free : tree.get? place ≠ some .directory := by simp [absent]
  have directory : (tree.set place .directory).get? place = some .directory := by
    rw [get?_set (ne_root_of_free free), if_pos rfl]
  exact ⟨wellFormed.set free above .directory,
    isDirectoryAt_iff.mpr ⟨place, (grown_set free _).resolve leads, directory⟩⟩

/-! ## Paths of files -/

/-- A write puts a file where a path leads, unless a directory is there or should be. Where nothing is,
it needs a directory to put it in. -/
theorem write_eq_ok_iff : tree.write path content = .ok after ↔
    ∃ place, tree.resolve path = .ok place ∧ namesDirectory path = false ∧
      tree.get? place ≠ some .directory ∧
      (tree.get? place = none → tree.get? place.dropLast = some .directory) ∧
      tree.set place (.file content) = after := by
  rw [write]
  cases leads : tree.resolve path with
  | error fault => simp
  | ok place =>
      cases there : tree.get? place with
      | none =>
          by_cases above : tree.get? place.dropLast = some .directory
          · cases single : namesDirectory path <;> simp [there, above]
          · simp [there, above]
      | some entry =>
          cases entry with
          | directory => simp [there]
          | file held => cases single : namesDirectory path <;> simp [there]

/-- A file can be written at a path. -/
structure TakesFile (tree : FileTree) (path : String) (place : Place) : Prop where
  leads : tree.resolve path = .ok place
  single : namesDirectory path = false
  free : tree.get? place ≠ some .directory
  above : tree.get? place.dropLast = some .directory

namespace TakesFile

variable (takes : TakesFile tree path place)

include takes

theorem named : place ≠ [] :=
  ne_root_of_free takes.free

theorem cases_there : tree.get? place = none ∨ ∃ content, tree.get? place = some (.file content) := by
  cases there : tree.get? place with
  | none => exact .inl rfl
  | some entry =>
      cases entry with
      | directory => exact absurd there takes.free
      | file content => exact .inr ⟨content, rfl⟩

theorem alike (alike : Alike tree after) : TakesFile after path place where
  leads := alike.grown.resolve takes.leads
  single := takes.single
  free there := takes.free (alike.shrunk.directories place there)
  above := alike.grown.directories _ takes.above

theorem entryAt_of_absent (absent : tree.get? place = none) : tree.entryAt path = .error .notFound := by
  rw [entryAt, takes.leads]
  dsimp only
  rw [absent]

theorem entryAt_of_held (held : tree.get? place = some (.file content)) :
    tree.entryAt path = .ok (.file content) := by
  rw [entryAt, takes.leads]
  dsimp only
  rw [held, takes.single]
  rfl

theorem isThere_iff : tree.isThere path ↔ tree.get? place ≠ none := by
  rw [isThere]
  rcases takes.cases_there with absent | ⟨content, held⟩
  · simp [takes.entryAt_of_absent absent, absent]
  · simp [takes.entryAt_of_held held, held]

theorem readText_of_held {text : String} (held : tree.get? place = some (.file (.text text))) :
    tree.readText path = .ok text := by
  rw [readText, takes.entryAt_of_held held]

theorem held_of_readText {text : String} (read : tree.readText path = .ok text) :
    tree.get? place = some (.file (.text text)) := by
  rcases takes.cases_there with absent | ⟨content, held⟩
  · rw [readText, takes.entryAt_of_absent absent] at read
    cases read
  · rw [readText, takes.entryAt_of_held held] at read
    cases content with
    | text other =>
        rw [held, Except.ok.inj read]
    | archive entries => cases read
    | other => cases read

theorem write (content : Content) : tree.write path content = .ok (tree.set place (.file content)) :=
  write_eq_ok_iff.mpr
    ⟨place, takes.leads, takes.single, takes.free, fun _ => takes.above, rfl⟩

theorem get?_set (entry : Entry) (other : Place) :
    (tree.set place entry).get? other = if other = place then some entry else tree.get? other :=
  FileTree.get?_set takes.named other

theorem wellFormed_set (wellFormed : tree.WellFormed) (content : Content) :
    (tree.set place (.file content)).WellFormed :=
  wellFormed.set takes.free takes.above _

theorem alike_set (content : Content) : Alike tree (tree.set place (.file content)) :=
  FileTree.alike_set takes.free content

end TakesFile

/-- A write succeeds only where a file can be written. -/
theorem WellFormed.takesFile_of_write (wellFormed : tree.WellFormed)
    (written : tree.write path content = .ok after) : ∃ place, TakesFile tree path place := by
  obtain ⟨place, leads, single, free, above, -⟩ := write_eq_ok_iff.mp written
  refine ⟨place, leads, single, free, ?_⟩
  cases there : tree.get? place with
  | none => exact above there
  | some entry => exact wellFormed.above there

theorem takesFile_of_entryAt (wellFormed : tree.WellFormed)
    (held : tree.entryAt path = .ok (.file content)) :
    ∃ place, TakesFile tree path place ∧ tree.get? place = some (.file content) := by
  rw [entryAt] at held
  cases leads : tree.resolve path with
  | error fault =>
      rw [leads] at held
      cases held
  | ok place =>
      rw [leads] at held
      dsimp only at held
      split at held
      · cases held
      · rename_i there
        split at held
        · cases held
        · rename_i single
          obtain rfl := Entry.file.inj (Except.ok.inj held)
          exact ⟨place, ⟨leads, by simpa using single, by simp [there], wellFormed.above there⟩, there⟩
      · cases held

/-! ### Touching -/

/-- A file that was touched is there, and everything else is as it was. -/
structure Touched (tree : FileTree) (place : Place) (after : FileTree) : Prop where
  wellFormed : after.WellFormed
  alike : Alike tree after
  there : after.get? place ≠ none
  others : ∀ other ≠ place, after.get? other = tree.get? other
  own : tree.get? place ≠ none → after.get? place = tree.get? place

theorem Touched.kept (touched : Touched tree place after) (there : tree.get? other ≠ none) :
    after.get? other = tree.get? other := by
  by_cases same : other = place
  · subst same
    exact touched.own there
  · exact touched.others other same

theorem TakesFile.touch (takes : TakesFile tree path place) (wellFormed : tree.WellFormed) :
    ∃ after, tree.touch path = .ok after ∧ Touched tree place after := by
  rcases takes.cases_there with absent | ⟨content, held⟩
  · refine ⟨tree.set place (.file (.text "")), ?_, takes.wellFormed_set wellFormed _,
      takes.alike_set _, ?_, fun other differs => ?_, fun there => absurd absent there⟩
    · rw [FileTree.touch, takes.entryAt_of_absent absent]
      exact takes.write _
    · rw [takes.get?_set, if_pos rfl]
      simp
    · rw [takes.get?_set, if_neg differs]
  · refine ⟨tree, ?_, wellFormed, Alike.refl tree, by simp [held], fun _ _ => rfl, fun _ => rfl⟩
    rw [FileTree.touch, takes.entryAt_of_held held]

theorem WellFormed.takesFile_of_touch (wellFormed : tree.WellFormed)
    (touched : tree.touch path = .ok after) : ∃ place, TakesFile tree path place := by
  rw [FileTree.touch] at touched
  split at touched
  · cases touched
  · rename_i held
    obtain ⟨place, takes, -⟩ := takesFile_of_entryAt wellFormed held
    exact ⟨place, takes⟩
  · exact wellFormed.takesFile_of_write touched
  · cases touched

/-! ### Moving -/

theorem TakesFile.move {source : String} {start : Place} (takes : TakesFile tree path place)
    (wellFormed : tree.WellFormed) (origin : TakesFile tree source start)
    (held : tree.get? start = some (.file content)) :
    tree.move source path = .ok ((tree.erase start).set place (.file content)) := by
  rw [FileTree.move, origin.entryAt_of_held held, origin.leads]
  exact (takes.alike (wellFormed.alike_erase held)).write content

theorem WellFormed.takesFile_of_move {source : String} (wellFormed : tree.WellFormed)
    (moved : tree.move source path = .ok after) : ∃ place, TakesFile tree path place := by
  rw [FileTree.move] at moved
  split at moved
  · cases moved
  · cases moved
  · cases moved
  · rename_i content start held leads
    obtain ⟨place, takes, there⟩ := takesFile_of_entryAt wellFormed held
    obtain rfl : place = start := Except.ok.inj (takes.leads.symm.trans leads)
    obtain ⟨target, written⟩ := (wellFormed.erase there).takesFile_of_write moved
    exact ⟨target, written.alike (wellFormed.alike_erase there).symm⟩

end BlockForge.Files.FileTree
