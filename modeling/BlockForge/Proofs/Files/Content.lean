/-
# Which files an action alters

What a tree tells of a file is what it holds, or that it is not there. An action may make
directories on its way, also if it fails later on, so trees are compared by their files: an action
alters only the files that some paths lead to if every other file holds afterwards what it held
before, and no file has come up or gone.

The paths are resolved in the tree that is left behind. More of them lead somewhere there, and
since no directory is taken away, to the same places as on the way. So the property goes through
sequences of actions.
-/

import BlockForge.Proofs.Files.Action

namespace BlockForge.Files

variable {ε δ α β : Type}

namespace FileTree

variable {tree before after last : FileTree} {place : Place} {path : String} {content : Content}
variable {paths more : List String}

def contentAt? (tree : FileTree) (place : Place) : Option Content :=
  match tree.get? place with
  | some (.file content) => some content
  | _ => none

/-- Directories are kept, and so are the files that none of some paths leads to. -/
structure AltersOnly (paths : List String) (before after : FileTree) : Prop where
  grown : Grown before after
  files : ∀ place, (∀ path ∈ paths, after.resolve path ≠ .ok place) →
    after.contentAt? place = before.contentAt? place

theorem AltersOnly.refl (paths : List String) (tree : FileTree) : AltersOnly paths tree tree :=
  ⟨⟨rfl, fun _ there => there⟩, fun _ _ => rfl⟩

theorem AltersOnly.trans (first : AltersOnly paths before after)
    (second : AltersOnly paths after last) : AltersOnly paths before last where
  grown := ⟨second.grown.base.trans first.grown.base, fun place there =>
    second.grown.directories place (first.grown.directories place there)⟩
  files place apart := by
    rw [second.files place apart]
    refine first.files place fun path among leads => ?_
    exact apart path among (second.grown.resolve leads)

theorem AltersOnly.mono (alters : AltersOnly paths before after) (within : paths ⊆ more) :
    AltersOnly more before after :=
  ⟨alters.grown, fun place apart => alters.files place fun path among =>
    apart path (within among)⟩

/-- Where the text of a file is read, the file holds it, and the other way round. -/
theorem readText_eq_ok_iff {text : String} (leads : tree.resolve path = .ok place) :
    tree.readText path = .ok text ↔
      namesDirectory path = false ∧ tree.contentAt? place = some (.text text) := by
  rw [readText, entryAt, leads]
  dsimp only
  cases there : tree.get? place with
  | none => simp [contentAt?, there]
  | some entry =>
      cases entry with
      | directory => simp [contentAt?, there]
      | file content =>
          cases namesDirectory path with
          | true => simp
          | false => cases content <;> simp [contentAt?, there]

theorem altersOnly_set_directory (absent : tree.get? place = none) :
    AltersOnly [] tree (tree.set place .directory) := by
  have free : tree.get? place ≠ some .directory := by simp [absent]
  refine ⟨grown_set free _, fun other _ => ?_⟩
  rw [contentAt?, contentAt?, get?_set (ne_root_of_free free)]
  by_cases same : other = place
  · rw [if_pos same, same, absent]
  · rw [if_neg same]

/-- A file is put where a path leads. -/
theorem altersOnly_set_file (leads : tree.resolve path = .ok place)
    (free : tree.get? place ≠ some .directory) (content : Content) :
    AltersOnly [path] tree (tree.set place (.file content)) := by
  refine ⟨grown_set free _, fun other apart => ?_⟩
  have differs : other ≠ place := by
    rintro rfl
    exact apart path List.mem_cons_self ((grown_set free _).resolve leads)
  rw [contentAt?, contentAt?, get?_set (ne_root_of_free free), if_neg differs]

/-- What a write leaves: its path leads to a file with what was written, and no other file is
altered. -/
theorem spec_of_write (written : tree.write path content = .ok after) :
    AltersOnly [path] tree after ∧
      ∃ place, after.resolve path = .ok place ∧ after.contentAt? place = some content := by
  obtain ⟨place, leads, -, free, -, rfl⟩ := write_eq_ok_iff.mp written
  refine ⟨altersOnly_set_file leads free content, place, (grown_set free _).resolve leads, ?_⟩
  rw [contentAt?, get?_set (ne_root_of_free free), if_pos rfl]

theorem altersOnly_of_touch (touched : tree.touch path = .ok after) :
    AltersOnly [path] tree after := by
  rw [touch] at touched
  split at touched
  · cases touched
  · rw [Except.ok.inj touched]
    exact AltersOnly.refl _ _
  · exact (spec_of_write touched).1
  · cases touched

/-- A file comes up empty where it is touched for the first time. -/
theorem fresh_of_touch (touched : tree.touch path = .ok after)
    (differs : after.contentAt? place ≠ tree.contentAt? place) :
    tree.contentAt? place = none ∧ after.contentAt? place = some (.text "") := by
  have alters := altersOnly_of_touch touched
  rw [touch] at touched
  split at touched
  · cases touched
  · rw [Except.ok.inj touched] at differs
    exact absurd rfl differs
  · rename_i missing
    obtain ⟨-, written, leads, held⟩ := spec_of_write touched
    have here : place = written := by
      by_contra other
      refine differs (alters.files place ?_)
      simp [leads, Ne.symm other]
    subst here
    refine ⟨?_, held⟩
    rw [entryAt] at missing
    obtain ⟨first, start, -⟩ := write_eq_ok_iff.mp touched
    obtain rfl : first = place := Except.ok.inj ((alters.grown.resolve start).symm.trans leads)
    rw [start] at missing
    dsimp only at missing
    split at missing
    · rename_i absent
      rw [contentAt?, absent]
    · split at missing <;> cases missing
    · cases missing
  · cases touched

theorem altersOnly_of_makeDirectory (made : tree.makeDirectory path = .ok after) :
    AltersOnly [] tree after := by
  obtain ⟨place, -, absent, -, rfl⟩ := makeDirectory_eq_ok_iff.mp made
  exact altersOnly_set_directory absent

end FileTree

open FileTree (AltersOnly)

/-! ## Actions -/

namespace Action

variable {action : Action ε α} {next : α → Action ε β} {paths more : List String}

/-- Whatever an action gives, it alters only the files that some paths lead to. -/
def AltersOnly (paths : List String) (action : Action ε α) : Prop :=
  ∀ tree, FileTree.AltersOnly paths tree (outcome action tree).2

/-- If an action fails, it alters only the files that some paths lead to. -/
def FailsAltering (paths : List String) (action : Action ε α) : Prop :=
  ∀ tree fault after, outcome action tree = (.error fault, after) →
    FileTree.AltersOnly paths tree after

namespace AltersOnly

theorem of_outcome (alters : AltersOnly paths action) {tree after : FileTree}
    {result : Except ε α} (ended : outcome action tree = (result, after)) :
    FileTree.AltersOnly paths tree after := by
  have left := alters tree
  rw [ended] at left
  exact left

theorem mono (alters : AltersOnly paths action) (within : paths ⊆ more) :
    AltersOnly more action :=
  fun tree => (alters tree).mono within

theorem pure (paths : List String) (a : α) : AltersOnly paths (pure a : Action ε α) :=
  fun tree => FileTree.AltersOnly.refl paths tree

theorem bind (first : AltersOnly paths action) (second : ∀ a, AltersOnly paths (next a)) :
    AltersOnly paths (action >>= next) := by
  intro tree
  cases ended : outcome action tree with
  | mk result between =>
      have start := first.of_outcome ended
      cases result with
      | error fault =>
          rw [outcome_bind_of_error ended]
          exact start
      | ok a =>
          rw [outcome_bind_of_ok ended]
          exact start.trans (second a between)

/-- A sequence that fails did so at its end, or earlier. -/
theorem failsAltering_bind (first : AltersOnly paths action)
    (second : ∀ a, FailsAltering paths (next a)) : FailsAltering paths (action >>= next) := by
  intro tree fault after failed
  cases ended : outcome action tree with
  | mk result between =>
      have start := first.of_outcome ended
      cases result with
      | error earlier =>
          rw [outcome_bind_of_error ended] at failed
          rw [← (Prod.mk.inj failed).2]
          exact start
      | ok a =>
          rw [outcome_bind_of_ok ended] at failed
          exact start.trans (second a between fault after failed)

theorem mapFault (alters : AltersOnly paths action) (f : ε → δ) :
    AltersOnly paths (action.mapFault f) := by
  intro tree
  rw [outcome_mapFault]
  exact alters tree

theorem look (paths : List String) (f : FileTree → α) : AltersOnly paths (look f : Action ε α) :=
  fun tree => FileTree.AltersOnly.refl paths tree

theorem take (paths : List String) (f : FileTree → Except ε α) : AltersOnly paths (take f) := by
  intro tree
  rw [outcome_take]
  exact FileTree.AltersOnly.refl paths tree

theorem change {f : FileTree → Except ε FileTree}
    (alters : ∀ tree after, f tree = .ok after → FileTree.AltersOnly paths tree after) :
    AltersOnly paths (change f) := by
  intro tree
  cases changed : f tree with
  | error fault =>
      rw [outcome_change_of_error changed]
      exact FileTree.AltersOnly.refl paths tree
  | ok after =>
      rw [outcome_change_of_ok changed]
      exact alters tree after changed

end AltersOnly

/-- A single change that fails has changed nothing. -/
theorem failsAltering_change (f : FileTree → Except ε FileTree) : FailsAltering [] (change f) := by
  intro tree fault after failed
  cases changed : f tree with
  | error refused =>
      rw [outcome_change_of_error changed] at failed
      rw [← (Prod.mk.inj failed).2]
      exact FileTree.AltersOnly.refl [] tree
  | ok left =>
      rw [outcome_change_of_ok changed] at failed
      cases failed

theorem FailsAltering.mono (fails : FailsAltering paths action) (within : paths ⊆ more) :
    FailsAltering more action :=
  fun tree fault after failed => (fails tree fault after failed).mono within

/-- What does not fail may follow. -/
theorem FailsAltering.bind_pure (fails : FailsAltering paths action) (f : α → β) :
    FailsAltering paths (action >>= fun a => pure (f a)) := by
  intro tree fault after failed
  cases ended : outcome action tree with
  | mk result between =>
      cases result with
      | error earlier =>
          rw [outcome_bind_of_error ended] at failed
          rw [← (Prod.mk.inj failed).2]
          exact fails tree earlier between ended
      | ok a =>
          rw [outcome_bind_of_ok ended] at failed
          cases failed

theorem FailsAltering.mapFault (fails : FailsAltering paths action) (f : ε → δ) :
    FailsAltering paths (action.mapFault f) := by
  intro tree fault after failed
  rw [outcome_mapFault] at failed
  cases ended : outcome action tree with
  | mk result left =>
      rw [ended] at failed
      obtain ⟨same, rfl⟩ := Prod.mk.inj failed
      cases result with
      | error earlier => exact fails tree earlier left ended
      | ok a => cases same

end Action

/-! ## Making directories -/

/-- Whether or not all directories can be made, what is left is reached by making single ones: a
relation holds of it that holds where nothing changes and where one directory is made, and that goes
on from the parent of a path to the path. -/
theorem outcome_makeDirectoriesWithin_rule {R : String → FileTree → FileTree → Prop}
    (refl : ∀ path tree, R path tree tree)
    (made : ∀ path tree after, tree.makeDirectory path = .ok after → R path tree after)
    (onwards : ∀ path parent tree between after, parent? path = some parent →
      R parent tree between → R path between after → R path tree after)
    (fuel : Nat) (path : String) (tree : FileTree) :
    R path tree (outcome (makeDirectoriesWithin fuel path) tree).2 := by
  have single (path : String) (tree : FileTree) :
      R path tree (outcome (makeDirectory path) tree).2 := by
    rw [outcome_makeDirectory]
    cases grown : tree.makeDirectory path with
    | ok after => exact made path tree after grown
    | error fault => cases tree.isDirectoryAt path <;> exact refl path tree
  induction fuel generalizing path tree with
  | zero => exact refl path tree
  | succ fuel ih =>
      by_cases empty : path = ""
      · rw [makeDirectoriesWithin, if_pos (by simp [empty])]
        exact refl path tree
      · rw [outcome_makeDirectoriesWithin_succ fuel empty]
        split
        · rename_i grown
          exact made path tree _ grown
        · split
          · exact refl path tree
          · rename_i parent outer
            have first := ih parent tree
            cases ended : outcome (makeDirectoriesWithin fuel parent) tree with
            | mk result between =>
                rw [ended] at first
                cases result with
                | error earlier =>
                    rw [outcome_bind_of_error ended]
                    exact onwards path parent _ _ _ outer first (refl path between)
                | ok nothing =>
                    rw [outcome_bind_of_ok ended]
                    exact onwards path parent _ _ _ outer first (single path between)
        · split <;> exact refl path tree

/-- Directories are made without altering a file, also if not all of them can be made. -/
theorem altersOnly_makeDirectoriesWithin (fuel : Nat) (path : String) :
    (makeDirectoriesWithin fuel path).AltersOnly [] :=
  outcome_makeDirectoriesWithin_rule (R := fun _ => FileTree.AltersOnly [])
    (fun _ tree => .refl [] tree) (fun _ _ _ made => FileTree.altersOnly_of_makeDirectory made)
    (fun _ _ _ _ _ _ first second => first.trans second) fuel path

theorem altersOnly_makeDirectories (path : String) : (makeDirectories path).AltersOnly [] :=
  altersOnly_makeDirectoriesWithin _ path

end BlockForge.Files
