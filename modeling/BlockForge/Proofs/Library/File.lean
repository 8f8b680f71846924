/-
# A library in a file

The file system takes no part in what a library answers, as long as it lets the library be kept.
This is asked of it once, at a place where no document is: an empty document could be written
there. From then on the directory is there, and the document, its draft and the file that is
locked can be written whenever they have to be, since a library makes no directory in a place of
theirs and takes none away.

So a tree stands for a table: for the empty one as long as nothing was kept, and afterwards for the
one that its document is read as. Looking at the library gives what the table gives. A change gives
what it gives on the table, and leaves a tree that stands for the table of the new document, or for
the same table if it failed.
-/

import BlockForge.Library.Store
import BlockForge.Proofs.Files.Action

namespace BlockForge.Library

open BlockForge.Files

variable {α : Type} {path : String} {tree after : FileTree} {table : Table}

/-! ## Places of a library -/

/-- Where the files of a library are. -/
structure Places where
  document : Place
  lock : Place
  draft : Place

/-- The files of a library can be written. -/
structure Housed (path : String) (places : Places) (tree : FileTree) : Prop where
  wellFormed : tree.WellFormed
  inDirectory : ∀ parent, parent? path = some parent → parent ≠ "" → tree.isDirectoryAt parent
  takesDocument : tree.TakesFile path places.document
  takesLock : tree.TakesFile (lockPath path) places.lock
  takesDraft : tree.TakesFile (draftPath path) places.draft

/-- The document of a library holds a table. A document that is missing holds the empty one, but
then the library was locked before. -/
structure Keeps (path : String) (places : Places) (tree : FileTree) (table : Table) : Prop
    extends Housed path places tree where
  content : (tree.get? places.document = none ∧ table = .empty) ∨
    ∃ text, tree.get? places.document = some (.file (.text text)) ∧ tableOfText text = .ok table
  marked : tree.get? places.document ≠ none ∨ tree.get? places.lock ≠ none

variable {places : Places}

theorem Housed.alike (housed : Housed path places tree) (wellFormed : after.WellFormed)
    (alike : tree.Alike after) : Housed path places after where
  wellFormed := wellFormed
  inDirectory parent above named :=
    alike.grown.isDirectoryAt (housed.inDirectory parent above named)
  takesDocument := housed.takesDocument.alike alike
  takesLock := housed.takesLock.alike alike
  takesDraft := housed.takesDraft.alike alike

/-! ## Steps of a library -/

theorem outcome_atPath_of_ok {β : Type} {action : Action FileFault β} {result : β}
    (done : outcome action tree = (.ok result, after)) (path : String) :
    outcome (atPath path action) tree = (.ok result, after) := by
  rw [atPath, Action.outcome_mapFault, done]
  rfl

theorem outcome_atPath_of_error {β : Type} {action : Action FileFault β} {fault : FileFault}
    (refused : outcome action tree = (.error fault, after)) (path : String) :
    outcome (atPath path action) tree = (.error (.inaccessible path fault), after) := by
  rw [atPath, Action.outcome_mapFault, refused]
  rfl

theorem ok_of_outcome_atPath {β : Type} {action : Action FileFault β} {result : β}
    (done : outcome (atPath path action) tree = (.ok result, after)) :
    outcome action tree = (.ok result, after) := by
  rw [atPath, Action.outcome_mapFault] at done
  cases found : outcome action tree with
  | mk given left =>
      rw [found] at done
      cases given with
      | error fault => cases done
      | ok given =>
          obtain ⟨same, rfl⟩ := Prod.mk.inj done
          rw [Except.ok.inj same]

theorem ok_of_outcome_change {f : FileTree → Except FileFault FileTree}
    (done : outcome (Action.change f) tree = (.ok (), after)) : f tree = .ok after := by
  cases found : f tree with
  | error fault =>
      rw [Action.outcome_change_of_error found] at done
      cases done
  | ok changed =>
      rw [Action.outcome_change_of_ok found] at done
      rw [(Prod.mk.inj done).2]

/-- The directory of a document is there after it was made. -/
theorem made_of_outcome_makeParent (wellFormed : tree.WellFormed)
    (made : outcome (makeParent path) tree = (.ok (), after)) : after.WellFormed ∧
      ∀ parent, parent? path = some parent → parent ≠ "" → after.isDirectoryAt parent := by
  rw [makeParent] at made
  cases above : parent? path with
  | none =>
      rw [above] at made
      obtain ⟨-, rfl⟩ := Prod.mk.inj made
      exact ⟨wellFormed, by simp⟩
  | some parent =>
      rw [above] at made
      dsimp only at made
      split at made
      · rename_i unnamed
        obtain ⟨-, rfl⟩ := Prod.mk.inj made
        refine ⟨wellFormed, ?_⟩
        rintro _ ⟨rfl⟩ named
        exact absurd unnamed (by simpa using named)
      · obtain ⟨still, there⟩ :=
          made_of_outcome_makeDirectoriesWithin wellFormed (ok_of_outcome_atPath made)
        refine ⟨still, ?_⟩
        rintro _ ⟨rfl⟩ named
        exact there named

theorem Housed.outcome_makeParent (housed : Housed path places tree) :
    outcome (makeParent path) tree = (.ok (), tree) := by
  rw [makeParent]
  cases above : parent? path with
  | none => rfl
  | some parent =>
      dsimp only
      split
      · rfl
      · rename_i named
        have named : parent ≠ "" := by simpa using named
        exact outcome_atPath_of_ok
          (outcome_makeDirectories_of_there named (housed.inDirectory parent above named)) parent

theorem Housed.outcome_lock (housed : Housed path places tree) :
    ∃ after, outcome (lock path) tree = (.ok (), after) ∧ tree.Touched places.lock after := by
  obtain ⟨after, touched, spec⟩ := housed.takesLock.touch housed.wellFormed
  exact ⟨after, outcome_atPath_of_ok (Action.outcome_change_of_ok touched) _, spec⟩

/-- The table that is read at the path of a document. -/
def documentTable (path : String) (tree : FileTree) : Except Failure Table :=
  if tree.isThere path then
    ((tree.readText path).mapError (.inaccessible path)).bind tableOfText
  else .ok .empty

/-- Loading a library reads its document and changes nothing. -/
theorem outcome_load (path : String) (tree : FileTree) :
    outcome (load path) tree = (documentTable path tree, tree) := by
  refine (outcome_bind_of_ok (Action.outcome_look _ tree)).trans ?_
  rw [documentTable]
  cases tree.isThere path with
  | false => rfl
  | true =>
      have taken : outcome (atPath path (Action.take (·.readText path))) tree =
          ((tree.readText path).mapError (.inaccessible path), tree) := by
        rw [atPath, Action.outcome_mapFault, Action.outcome_take]
      rw [if_pos rfl, if_pos rfl]
      cases read : tree.readText path with
      | error fault =>
          rw [read] at taken
          exact outcome_bind_of_error taken
      | ok text =>
          rw [read] at taken
          exact (outcome_bind_of_ok taken).trans (Action.outcome_take _ tree)

theorem documentTable_of_absent (absent : tree.isThere path = false) :
    documentTable path tree = .ok .empty := by
  rw [documentTable, absent, if_neg Bool.false_ne_true]

theorem documentTable_of_there {text : String} (there : tree.isThere path = true)
    (read : tree.readText path = .ok text) : documentTable path tree = tableOfText text := by
  rw [documentTable, if_pos there, read]
  rfl

/-- A document that was saved is there. -/
theorem Housed.outcome_save (housed : Housed path places tree) (table : Table) :
    ∃ after, outcome (save path table) tree = (.ok (), after) ∧ Housed path places after ∧
      after.get? places.document = some (.file (.text (documentText table))) := by
  have drafted : outcome (Action.change (·.write (draftPath path) (.text (documentText table)))) tree =
      (.ok (), tree.set places.draft (.file (.text (documentText table)))) :=
    Action.outcome_change_of_ok (housed.takesDraft.write _)
  have housedDraft := housed.alike (housed.takesDraft.wellFormed_set housed.wellFormed _)
    (housed.takesDraft.alike_set (.text (documentText table)))
  have held : (tree.set places.draft (.file (.text (documentText table)))).get? places.draft =
      some (.file (.text (documentText table))) := by
    rw [housed.takesDraft.get?_set, if_pos rfl]
  have moved : outcome (Action.change (·.move (draftPath path) path)) _ = (.ok (), _) :=
    Action.outcome_change_of_ok
      (housedDraft.takesDocument.move housedDraft.wellFormed housedDraft.takesDraft held)
  have housedRest := housedDraft.alike (housedDraft.wellFormed.erase held)
    (housedDraft.wellFormed.alike_erase held)
  have takes := housedRest.takesDocument
  refine ⟨_, ?_, housedRest.alike (takes.wellFormed_set housedRest.wellFormed _)
    (takes.alike_set (.text (documentText table))), ?_⟩
  · refine (outcome_bind_of_ok (outcome_atPath_of_ok drafted _)).trans ?_
    exact outcome_atPath_of_ok moved path
  · rw [takes.get?_set, if_pos rfl]

theorem Keeps.documentTable_eq (keeps : Keeps path places tree table) :
    documentTable path tree = .ok table := by
  have takes := keeps.takesDocument
  rcases keeps.content with ⟨absent, rfl⟩ | ⟨text, held, read⟩
  · apply documentTable_of_absent
    rw [Bool.eq_false_iff, ne_eq, takes.isThere_iff, absent]
    simp
  · rw [documentTable_of_there (takes.isThere_iff.mpr (by simp [held]))
      (takes.readText_of_held held), read]

theorem Keeps.outcome_load (keeps : Keeps path places tree table) :
    outcome (load path) tree = (.ok table, tree) := by
  rw [Library.outcome_load, keeps.documentTable_eq]

/-- Locking a library changes nothing about it. -/
theorem Keeps.outcome_lock (keeps : Keeps path places tree table) :
    ∃ after, outcome (Library.lock path) tree = (.ok (), after) ∧ Keeps path places after table := by
  obtain ⟨after, locked, touched⟩ := keeps.toHoused.outcome_lock
  refine ⟨after, locked, keeps.toHoused.alike touched.wellFormed touched.alike, ?_,
    .inr touched.there⟩
  rcases keeps.content with ⟨absent, empty⟩ | ⟨text, held, read⟩
  · -- Without a document there is a lock, so the document is not what was made.
    have lockThere := keeps.marked.resolve_left (not_not.mpr absent)
    have differs : places.document ≠ places.lock := by
      intro same
      rw [same] at absent
      exact lockThere absent
    exact .inl ⟨(touched.others _ differs).trans absent, empty⟩
  · refine .inr ⟨text, ?_, read⟩
    rw [touched.kept (by simp [held]), held]

/-! ## Looking and changing -/

theorem outcome_queryFile_of_absent (absent : tree.isThere path = false) (query : Query α) :
    outcome (queryFile path query) tree = (query .empty, tree) := by
  refine (outcome_bind_of_ok (Action.outcome_look _ tree)).trans ?_
  rw [absent]
  exact Action.outcome_take _ tree

theorem Keeps.empty_of_absent (keeps : Keeps path places tree table)
    (absent : tree.isThere path = false) : table = .empty :=
  Except.ok.inj (keeps.documentTable_eq.symm.trans (documentTable_of_absent absent))

/-- Looking at a library gives what its table gives. -/
theorem Keeps.outcome_query (keeps : Keeps path places tree table) (query : Query α) :
    ∃ after, outcome (queryFile path query) tree = (query table, after) ∧
      Keeps path places after table := by
  cases there : tree.isThere path with
  | false =>
      obtain rfl := keeps.empty_of_absent there
      exact ⟨tree, outcome_queryFile_of_absent there query, keeps⟩
  | true =>
      obtain ⟨after, locked, kept⟩ := keeps.outcome_lock
      refine ⟨after, ?_, kept⟩
      refine (outcome_bind_of_ok (Action.outcome_look _ tree)).trans ?_
      rw [there, if_pos rfl]
      refine (outcome_bind_of_ok locked).trans ?_
      refine (outcome_bind_of_ok kept.outcome_load).trans ?_
      exact Action.outcome_take _ after

/-- What is done to a library before its table is changed. -/
def openFile (path : String) : Action Failure Table := do
  makeParent path
  lock path
  load path

/-- A change of a table, and the new document. -/
def closeFile (path : String) (change : Change α) (table : Table) : Action Failure α := do
  let (result, changed) ← Action.take fun _ => change table
  save path changed
  return result

theorem changeFile_eq (path : String) (change : Change α) :
    changeFile path change = openFile path >>= closeFile path change := by
  simp only [changeFile, openFile, bind_assoc]
  rfl

theorem Keeps.outcome_openFile (keeps : Keeps path places tree table) :
    ∃ after, outcome (openFile path) tree = (.ok table, after) ∧ Keeps path places after table := by
  obtain ⟨after, locked, kept⟩ := keeps.outcome_lock
  refine ⟨after, ?_, kept⟩
  refine (outcome_bind_of_ok keeps.toHoused.outcome_makeParent).trans ?_
  exact (outcome_bind_of_ok locked).trans kept.outcome_load

/-- What a change leaves behind: the same table if it failed, and otherwise what is read from the
new document. -/
structure Follows (path : String) (places : Places) (change : Change α) (table : Table)
    (after : FileTree) : Prop where
  failed : ∀ failure, change table = .error failure → Keeps path places after table
  changed : ∀ result changed read, change table = .ok (result, changed) →
    tableOfText (documentText changed) = .ok read → Keeps path places after read

theorem Keeps.outcome_closeFile (keeps : Keeps path places tree table) (change : Change α) :
    ∃ after, outcome (closeFile path change table) tree = ((change table).map (·.1), after) ∧
      Follows path places change table after := by
  have taken {answer : Except Failure (α × Table)} (given : change table = answer) :
      outcome (Action.take fun _ => change table) tree = (answer, tree) := by
    rw [Action.outcome_take, given]
  cases answered : change table with
  | error failure =>
      refine ⟨tree, outcome_bind_of_error (taken answered), fun _ _ => keeps,
        fun result changed read answer => ?_⟩
      rw [answered] at answer
      cases answer
  | ok answer =>
      obtain ⟨after, saved, housed, held⟩ := keeps.toHoused.outcome_save answer.2
      refine ⟨after, (outcome_bind_of_ok (taken answered)).trans ((outcome_bind_of_ok saved).trans rfl),
        fun failure refused => ?_, fun result changed read given decoded => ?_⟩
      · rw [answered] at refused
        cases refused
      · rw [answered] at given
        rw [Except.ok.inj given] at held
        exact ⟨housed, .inr ⟨_, held, decoded⟩, .inl (by simp [held])⟩

/-! ## A place for a library -/

/-- No document is at a path, but an empty one could be written there. -/
structure Vacant (path : String) (tree : FileTree) : Prop where
  wellFormed : tree.WellFormed
  absent : tree.isThere path = false
  usable : (outcome (changeFile path fun table => .ok (table, table)) tree).1 = .ok .empty

/-- A lock can be made where one was made. -/
theorem takesLock_of_outcome_lock (wellFormed : tree.WellFormed)
    (locked : outcome (lock path) tree = (.ok (), after)) :
    ∃ place, tree.TakesFile (lockPath path) place ∧ tree.Touched place after := by
  have touched := ok_of_outcome_change (ok_of_outcome_atPath locked)
  obtain ⟨place, takes⟩ := wellFormed.takesFile_of_touch touched
  obtain ⟨left, same, spec⟩ := takes.touch wellFormed
  obtain rfl : after = left := Except.ok.inj (touched.symm.trans same)
  exact ⟨place, takes, spec⟩

/-- A draft and a document can be written where they were written. -/
theorem takesFile_of_outcome_save (wellFormed : tree.WellFormed)
    (saved : outcome (save path table) tree = (.ok (), after)) :
    (∃ place, tree.TakesFile (draftPath path) place) ∧ ∃ place, tree.TakesFile path place := by
  obtain ⟨nothing, between, drafted, moved⟩ := exists_of_outcome_bind saved
  have written := ok_of_outcome_change (ok_of_outcome_atPath drafted)
  obtain ⟨draft, takes⟩ := wellFormed.takesFile_of_write written
  obtain rfl := Except.ok.inj (written.symm.trans (takes.write _))
  obtain ⟨document, target⟩ := (takes.wellFormed_set wellFormed _).takesFile_of_move
    (ok_of_outcome_change (ok_of_outcome_atPath moved))
  exact ⟨⟨draft, takes⟩, document, target.alike (takes.alike_set _).symm⟩

theorem content_of_documentTable {place : Place} (takes : tree.TakesFile path place)
    (loaded : documentTable path tree = .ok table) :
    (tree.get? place = none ∧ table = .empty) ∨
      ∃ text, tree.get? place = some (.file (.text text)) ∧ tableOfText text = .ok table := by
  cases there : tree.isThere path with
  | false =>
      have absent : tree.get? place = none := by
        by_contra held
        rw [takes.isThere_iff.mpr held] at there
        cases there
      rw [documentTable_of_absent there] at loaded
      exact .inl ⟨absent, (Except.ok.inj loaded).symm⟩
  | true =>
      rw [documentTable, if_pos there] at loaded
      cases read : tree.readText path with
      | error fault =>
          rw [read] at loaded
          cases loaded
      | ok text =>
          rw [read] at loaded
          exact .inr ⟨text, takes.held_of_readText read, loaded⟩

/-- A library is opened at such a place as an empty one. -/
theorem Vacant.outcome_openFile (vacant : Vacant path tree) :
    ∃ places after, outcome (openFile path) tree = (.ok .empty, after) ∧
      Keeps path places after .empty := by
  cases used : outcome (changeFile path fun table => .ok (table, table)) tree with
  | mk result last =>
      obtain rfl : result = .ok .empty := by
        have usable := vacant.usable
        rw [used] at usable
        exact usable
      rw [changeFile_eq] at used
      obtain ⟨found, opened, opens, closes⟩ := exists_of_outcome_bind used
      obtain ⟨nothing, made, makes, rest⟩ := exists_of_outcome_bind opens
      obtain ⟨nothing, locked, locks, loads⟩ := exists_of_outcome_bind rest
      obtain ⟨answer, between, taken, saving⟩ := exists_of_outcome_bind closes
      obtain ⟨same, rfl⟩ := Prod.mk.inj taken
      obtain rfl := Except.ok.inj same
      obtain ⟨nothing, saved, saves, returns⟩ := exists_of_outcome_bind saving
      obtain ⟨empty, -⟩ := Prod.mk.inj returns
      obtain rfl : found = .empty := Except.ok.inj empty
      rw [outcome_load] at loads
      obtain ⟨read, rfl⟩ := Prod.mk.inj loads
      obtain ⟨madeWell, there⟩ := made_of_outcome_makeParent vacant.wellFormed makes
      obtain ⟨lock, takesLock, touched⟩ := takesLock_of_outcome_lock madeWell locks
      obtain ⟨⟨draft, takesDraft⟩, document, takesDocument⟩ :=
        takesFile_of_outcome_save touched.wellFormed saves
      have housed : Housed path ⟨document, lock, draft⟩ locked :=
        ⟨touched.wellFormed, fun parent above named =>
          touched.alike.grown.isDirectoryAt (there parent above named),
          takesDocument, takesLock.alike touched.alike, takesDraft⟩
      exact ⟨_, locked, opens, housed, content_of_documentTable takesDocument read,
        .inr touched.there⟩

/-- What a tree tells of a library at a path: nothing was kept there yet, or it keeps a table. -/
def Represents (path : String) (tree : FileTree) (table : Table) : Prop :=
  (Vacant path tree ∧ table = .empty) ∨ ∃ places, Keeps path places tree table

theorem Represents.outcome_query (represents : Represents path tree table) (query : Query α) :
    ∃ after, outcome (queryFile path query) tree = (query table, after) ∧
      Represents path after table := by
  rcases represents with ⟨vacant, rfl⟩ | ⟨places, keeps⟩
  · exact ⟨tree, outcome_queryFile_of_absent vacant.absent query, .inl ⟨vacant, rfl⟩⟩
  · obtain ⟨after, answered, kept⟩ := keeps.outcome_query query
    exact ⟨after, answered, .inr ⟨places, kept⟩⟩

theorem Represents.outcome_openFile (represents : Represents path tree table) :
    ∃ places after, outcome (openFile path) tree = (.ok table, after) ∧
      Keeps path places after table := by
  rcases represents with ⟨vacant, rfl⟩ | ⟨places, keeps⟩
  · exact vacant.outcome_openFile
  · exact ⟨places, keeps.outcome_openFile⟩

theorem Represents.outcome_change (represents : Represents path tree table) (change : Change α) :
    ∃ places after, outcome (changeFile path change) tree = ((change table).map (·.1), after) ∧
      Follows path places change table after := by
  obtain ⟨places, opened, opens, keeps⟩ := represents.outcome_openFile
  obtain ⟨after, closes, follows⟩ := keeps.outcome_closeFile change
  refine ⟨places, after, ?_, follows⟩
  rw [changeFile_eq]
  exact (outcome_bind_of_ok opens).trans closes

end BlockForge.Library
