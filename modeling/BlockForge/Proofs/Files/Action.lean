/-
# Outcomes of actions

An action on files gives a result or a failure, and leaves a tree in either case: this pair is its
outcome. The outcome of a sequence is found step by step, and a sequence that succeeded went
through a tree at which its first part succeeded.

Directories that were made are there, and making them once more changes nothing.
-/

import BlockForge.Files.Tree
import BlockForge.Proofs.Files.Tree

namespace BlockForge.Files

variable {σ ε δ α β : Type}

/-! ## Sequences -/

/-- What an action gives, and the state that it leaves behind. -/
def outcome (action : ExceptT ε (StateM σ) α) (state : σ) : Except ε α × σ :=
  action.run.run state

section Sequences

variable {action : ExceptT ε (StateM σ) α} {next : α → ExceptT ε (StateM σ) β} {state after : σ}

theorem outcome_bind (action : ExceptT ε (StateM σ) α) (next : α → ExceptT ε (StateM σ) β)
    (state : σ) : outcome (action >>= next) state =
      (outcome action state).1.casesOn (fun fault => (.error fault, (outcome action state).2))
        fun a => outcome (next a) (outcome action state).2 := by
  have unfolded : outcome (action >>= next) state =
      (ExceptT.bindCont next (outcome action state).1).run (outcome action state).2 := rfl
  rw [unfolded]
  cases (outcome action state).1 <;> rfl

theorem outcome_bind_of_ok {a : α} (first : outcome action state = (.ok a, after)) :
    outcome (action >>= next) state = outcome (next a) after := by
  rw [outcome_bind, first]

theorem outcome_bind_of_error {fault : ε} (first : outcome action state = (.error fault, after)) :
    outcome (action >>= next) state = (.error fault, after) := by
  rw [outcome_bind, first]

/-- A sequence that succeeded went through a state. -/
theorem exists_of_outcome_bind {b : β} (whole : outcome (action >>= next) state = (.ok b, after)) :
    ∃ a between, outcome action state = (.ok a, between) ∧
      outcome (next a) between = (.ok b, after) := by
  cases first : outcome action state with
  | mk result between =>
      cases result with
      | error fault =>
          rw [outcome_bind_of_error first] at whole
          cases whole
      | ok a =>
          rw [outcome_bind_of_ok first] at whole
          exact ⟨a, between, rfl, whole⟩

end Sequences

namespace Action

variable {tree after : FileTree}

theorem outcome_look (f : FileTree → α) (tree : FileTree) :
    outcome (look f : Action ε α) tree = (.ok (f tree), tree) :=
  rfl

theorem outcome_change_of_ok {f : FileTree → Except ε FileTree} (changed : f tree = .ok after) :
    outcome (change f) tree = (.ok (), after) := by
  refine (outcome_bind_of_ok rfl).trans ?_
  rw [changed]
  rfl

theorem outcome_change_of_error {f : FileTree → Except ε FileTree} {fault : ε}
    (refused : f tree = .error fault) : outcome (change f) tree = (.error fault, tree) := by
  refine (outcome_bind_of_ok rfl).trans ?_
  rw [refused]
  rfl

theorem outcome_take (f : FileTree → Except ε α) (tree : FileTree) :
    outcome (take f) tree = (f tree, tree) := by
  refine (outcome_bind_of_ok rfl).trans ?_
  cases f tree <;> rfl

theorem outcome_mapFault (f : ε → δ) (action : Action ε α) (tree : FileTree) :
    outcome (action.mapFault f) tree =
      ((outcome action tree).1.mapError f, (outcome action tree).2) := by
  rw [outcome, outcome, mapFault, ExceptT.run_mk, StateT.run_bind]
  cases action.run.run tree with
  | mk result after => cases result <;> rfl

end Action

/-! ## Directories -/

section Directories

variable {tree after : FileTree} {path : String}

/-- A failure is passed over where a directory is. -/
theorem outcome_unless (fault : FileFault) (path : String) (tree : FileTree) :
    outcome (do unless (← get).isDirectoryAt path do throw fault : Action FileFault Unit) tree =
      if tree.isDirectoryAt path then (.ok (), tree) else (.error fault, tree) := by
  refine (outcome_bind_of_ok rfl).trans ?_
  cases tree.isDirectoryAt path <;> rfl

/-- What making a directory comes to. -/
theorem outcome_makeDirectory (path : String) (tree : FileTree) :
    outcome (makeDirectory path) tree = match tree.makeDirectory path with
      | .ok made => (.ok (), made)
      | .error fault => if tree.isDirectoryAt path then (.ok (), tree) else (.error fault, tree) := by
  refine (outcome_bind_of_ok rfl).trans ?_
  cases tree.makeDirectory path with
  | ok made => rfl
  | error fault => exact outcome_unless fault path tree

/-- One level of making directories: the parent is made first where it is missing. -/
theorem outcome_makeDirectoriesWithin_succ (fuel : Nat) (named : path ≠ "") (tree : FileTree) :
    outcome (makeDirectoriesWithin (fuel + 1) path) tree = match tree.makeDirectory path with
      | .ok made => (.ok (), made)
      | .error .notFound => match parent? path with
        | none => (.error .notFound, tree)
        | some parent =>
          outcome (do makeDirectoriesWithin fuel parent; makeDirectory path) tree
      | .error fault => if tree.isDirectoryAt path then (.ok (), tree) else (.error fault, tree) := by
  rw [makeDirectoriesWithin, if_neg (by simpa using named)]
  refine (outcome_bind_of_ok rfl).trans ?_
  cases tree.makeDirectory path with
  | ok made => rfl
  | error fault =>
      cases fault
      case notFound => cases parent? path <;> rfl
      all_goals exact outcome_unless _ path tree

theorem outcome_makeDirectories_of_there (named : path ≠ "") (there : tree.isDirectoryAt path) :
    outcome (makeDirectories path) tree = (.ok (), tree) := by
  rw [makeDirectories, outcome_makeDirectoriesWithin_succ _ named,
    FileTree.makeDirectory_of_isDirectoryAt there]
  exact if_pos there

theorem made_of_outcome_makeDirectory (wellFormed : tree.WellFormed)
    (made : outcome (makeDirectory path) tree = (.ok (), after)) :
    after.WellFormed ∧ after.isDirectoryAt path := by
  rw [outcome_makeDirectory] at made
  split at made
  · rename_i grown
    obtain rfl := (Prod.mk.inj made).2
    exact wellFormed.makeDirectory grown
  · split at made
    · rename_i there
      obtain rfl := (Prod.mk.inj made).2
      exact ⟨wellFormed, there⟩
    · cases made

theorem made_of_outcome_makeDirectoriesWithin {fuel : Nat} (wellFormed : tree.WellFormed)
    (made : outcome (makeDirectoriesWithin fuel path) tree = (.ok (), after)) :
    after.WellFormed ∧ (path ≠ "" → after.isDirectoryAt path) := by
  induction fuel generalizing tree after path with
  | zero => cases made
  | succ fuel ih =>
      by_cases empty : path = ""
      · rw [makeDirectoriesWithin, if_pos (by simp [empty])] at made
        obtain ⟨-, rfl⟩ := Prod.mk.inj made
        exact ⟨wellFormed, fun named => absurd empty named⟩
      · rw [outcome_makeDirectoriesWithin_succ fuel empty] at made
        split at made
        · rename_i grown
          obtain rfl := (Prod.mk.inj made).2
          obtain ⟨still, there⟩ := wellFormed.makeDirectory grown
          exact ⟨still, fun _ => there⟩
        · split at made
          · cases made
          · obtain ⟨nothing, between, led, last⟩ := exists_of_outcome_bind made
            obtain ⟨still, there⟩ := made_of_outcome_makeDirectory (ih wellFormed led).1 last
            exact ⟨still, fun _ => there⟩
        · split at made
          · rename_i there
            obtain rfl := (Prod.mk.inj made).2
            exact ⟨wellFormed, fun _ => there⟩
          · cases made

end Directories

end BlockForge.Files
