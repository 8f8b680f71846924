/-
# Directories on the way

A directory that is missing is made after those that lead to it, which are found by taking names off
the end of its path. What that leaves of a tree does not depend on how far it gets: nothing comes up
but directories, nothing that was there is altered, and every directory that comes up is at a place
that the path leads through.
-/

import BlockForge.Files.Tree
import BlockForge.Proofs.Files.Child
import Mathlib.Data.List.TakeWhile

namespace BlockForge.Files

variable {path parent : String} {chars : List Char}

/-! ## Ends of paths -/

theorem isAbsolute_ofList (chars : List Char) :
    isAbsolute (String.ofList chars) = (chars.head? == some '/') := by
  rw [isAbsolute, String.toList_ofList]

/-- What is taken off the end of a path does not count as a name. -/
theorem names_reverse_trim (reversed : List Char) :
    names (String.ofList (trimmedEnd.trim reversed).reverse) =
      names (String.ofList reversed.reverse) := by
  induction reversed using trimmedEnd.trim.induct with
  | case1 rest ih =>
      rw [trimmedEnd.trim, ih, List.reverse_cons, names_separated]
      exact (List.append_nil _).symm
  | case2 rest ih =>
      rw [trimmedEnd.trim, ih]
      have chars : ('.' :: '/' :: rest).reverse = rest.reverse ++ '/' :: ['.'] := by simp
      rw [chars, names_separated]
      exact (List.append_nil _).symm
  | case3 other slash dot => rw [trimmedEnd.trim.eq_3 other slash dot]

theorem names_trimmedEnd (chars : List Char) :
    names (String.ofList (trimmedEnd chars)) = names (String.ofList chars) := by
  rw [trimmedEnd, names_reverse_trim, List.reverse_reverse]

theorem trim_suffix (reversed : List Char) : trimmedEnd.trim reversed <:+ reversed := by
  induction reversed using trimmedEnd.trim.induct with
  | case1 rest ih =>
      rw [trimmedEnd.trim]
      exact ih.trans (List.suffix_cons _ _)
  | case2 rest ih =>
      rw [trimmedEnd.trim]
      exact ih.trans ((List.suffix_cons _ _).trans (List.suffix_cons _ _))
  | case3 other slash dot =>
      have kept := trimmedEnd.trim.eq_3 other slash dot
      exact kept.symm ▸ List.suffix_refl other

theorem trimmedEnd_prefix_self (chars : List Char) : trimmedEnd chars <+: chars := by
  have whole := trim_suffix chars.reverse
  rw [← List.reverse_prefix, List.reverse_reverse] at whole
  exact whole

theorem getLast?_of_trim_eq_nil {reversed : List Char} (nothing : trimmedEnd.trim reversed = []) :
    reversed = [] ∨ reversed.getLast? = some '/' := by
  induction reversed using trimmedEnd.trim.induct with
  | case1 rest ih =>
      rw [trimmedEnd.trim] at nothing
      rcases ih nothing with rfl | last
      · exact .inr rfl
      · exact .inr (by simp [List.getLast?_cons, last])
  | case2 rest ih =>
      rw [trimmedEnd.trim] at nothing
      rcases ih nothing with rfl | last
      · exact .inr rfl
      · exact .inr (by simp [List.getLast?_cons, last])
  | case3 other slash dot =>
      rw [trimmedEnd.trim.eq_3 other slash dot] at nothing
      exact .inl nothing

theorem head?_of_prefix {front chars : List Char} (ahead : front <+: chars) (named : front ≠ []) :
    front.head? = chars.head? := by
  obtain ⟨rest, rfl⟩ := ahead
  obtain ⟨c, others, rfl⟩ := List.exists_cons_of_ne_nil named
  rfl

/-- What is kept of a directory has its names and starts where it does. -/
theorem names_cut (directory : List Char) :
    let cut := String.ofList (if (trimmedEnd directory).isEmpty && !directory.isEmpty then ['/']
      else trimmedEnd directory)
    names cut = names (String.ofList directory) ∧
      isAbsolute cut = isAbsolute (String.ofList directory) := by
  have left := names_trimmedEnd directory
  dsimp only
  by_cases nothing : trimmedEnd directory = []
  · rcases getLast?_of_trim_eq_nil (List.reverse_eq_nil_iff.mp nothing) with empty | last
    · obtain rfl := List.reverse_eq_nil_iff.mp empty
      exact ⟨rfl, rfl⟩
    · rw [List.getLast?_reverse] at last
      have named : directory ≠ [] := by
        rintro rfl
        cases last
      rw [nothing] at left
      rw [nothing, if_pos (by simp [named]), isAbsolute_ofList, isAbsolute_ofList, last, ← left]
      exact ⟨by decide, rfl⟩
  · rw [if_neg (by simp [nothing]), isAbsolute_ofList, isAbsolute_ofList,
      head?_of_prefix (trimmedEnd_prefix_self directory) nothing]
    exact ⟨left, rfl⟩

/-- What stands before the last name of a path has the names before it and starts where the path
does. -/
theorem names_ahead {chars : List Char} (there : chars ≠ []) :
    let ahead := String.ofList (chars.reverse.dropWhile (· != '/')).reverse
    names ahead <+: names (String.ofList chars) ∧
      isAbsolute ahead = isAbsolute (String.ofList chars) := by
  have whole := List.takeWhile_append_dropWhile (p := (· != '/')) (l := chars.reverse)
  dsimp only
  cases behind : chars.reverse.dropWhile (· != '/') with
  | nil =>
      refine ⟨List.nil_prefix, ?_⟩
      have single := List.dropWhile_eq_nil_iff.mp behind
      obtain ⟨c, rest, rfl⟩ := List.exists_cons_of_ne_nil there
      have own : c ≠ '/' := by simpa using single c (by simp)
      rw [List.reverse_nil, isAbsolute_ofList, isAbsolute_ofList]
      simp [own]
  | cons c rest =>
      have stops := List.head?_dropWhile_not (· != '/') chars.reverse
      rw [behind] at stops
      obtain rfl : c = '/' := by simpa using stops
      rw [behind] at whole
      have apart := congrArg List.reverse whole.symm
      rw [List.reverse_reverse, List.reverse_append, List.reverse_cons, List.append_assoc,
        List.singleton_append] at apart
      have slash : names (String.ofList []) = [] := names_empty
      rw [apart, List.reverse_cons, names_separated, names_separated, slash, List.append_nil,
        isAbsolute_ofList, isAbsolute_ofList]
      refine ⟨List.prefix_append _ _, ?_⟩
      cases rest.reverse <;> rfl

/-- The parent of a path starts where the path does, and its names come before the last name of the
path. -/
theorem parent?_eq_some (outer : parent? path = some parent) :
    names parent <+: names path ∧ isAbsolute parent = isAbsolute path := by
  rw [parent?] at outer
  dsimp only at outer
  split at outer
  · cases outer
  · rename_i nonempty
    have there : trimmedEnd path.toList ≠ [] := by simpa using nonempty
    have kept := names_trimmedEnd path.toList
    have starts := head?_of_prefix (trimmedEnd_prefix_self path.toList) there
    rw [String.ofList_toList] at kept
    obtain ⟨ahead, aheadStarts⟩ := names_ahead there
    obtain ⟨cutNames, cutStarts⟩ :=
      names_cut ((trimmedEnd path.toList).reverse.dropWhile (· != '/')).reverse
    obtain rfl := Option.some.inj outer
    rw [cutNames, cutStarts, aheadStarts, isAbsolute_ofList, isAbsolute, ← starts, ← kept]
    exact ⟨ahead, rfl⟩

/-! ## Places on the way -/

theorem mem_waysFrom_of_walk {tree : FileTree} {start place : Place} {names : List String}
    (walked : tree.walk start names = .ok place) : place ∈ waysFrom start names := by
  induction names generalizing start with
  | nil =>
      obtain rfl := Except.ok.inj walked
      exact List.mem_singleton_self _
  | cons name rest ih =>
      obtain ⟨next, stepped, onwards⟩ := FileTree.walk_cons_eq_ok_iff.mp walked
      have further := ih onwards
      rw [waysFrom]
      rcases (FileTree.step_eq_ok_iff.mp stepped).2 with ⟨back, rfl⟩ | ⟨forth, -, rfl⟩
      · rw [if_pos back]
        exact List.mem_cons_of_mem _ further
      · rw [if_neg forth]
        exact List.mem_cons_of_mem _ further

theorem waysFrom_subset_of_prefix {start : Place} {front whole : List String}
    (ahead : front <+: whole) : waysFrom start front ⊆ waysFrom start whole := by
  obtain ⟨rest, rfl⟩ := ahead
  induction front generalizing start with
  | nil =>
      intro place held
      rw [List.mem_singleton.mp held]
      cases rest <;> exact List.mem_cons_self
  | cons name front ih =>
      rw [List.cons_append, waysFrom, waysFrom]
      exact List.cons_subset_cons _ ih

theorem placesOf_parent_subset (base : Place) (outer : parent? path = some parent) :
    placesOf base parent ⊆ placesOf base path := by
  obtain ⟨ahead, starts⟩ := parent?_eq_some outer
  rw [placesOf, placesOf, starts]
  exact waysFrom_subset_of_prefix ahead

namespace FileTree

variable {tree before between after : FileTree} {place : Place} {ways more : List Place}

theorem mem_placesOf_of_resolve (leads : tree.resolve path = .ok place) :
    place ∈ placesOf tree.base path :=
  mem_waysFrom_of_walk (resolve_eq_ok_iff.mp leads).2.2.1

/-! ## Directories that come up -/

/-- At every place stands what stood there before, or a directory that came up on the way. -/
structure Extended (ways : List Place) (before after : FileTree) : Prop where
  base : after.base = before.base
  kept : ∀ place, after.get? place = before.get? place ∨
    (before.get? place = none ∧ after.get? place = some .directory ∧ place ∈ ways)

namespace Extended

theorem refl (ways : List Place) (tree : FileTree) : Extended ways tree tree :=
  ⟨rfl, fun _ => .inl rfl⟩

theorem mono (extended : Extended ways before after) (within : ways ⊆ more) :
    Extended more before after :=
  ⟨extended.base, fun place => (extended.kept place).imp_right fun ⟨absent, there, among⟩ =>
    ⟨absent, there, within among⟩⟩

theorem trans (first : Extended ways before between) (second : Extended ways between after) :
    Extended ways before after := by
  refine ⟨second.base.trans first.base, fun place => ?_⟩
  rcases second.kept place with same | ⟨absent, there, among⟩
  · rw [same]
    exact first.kept place
  · rcases first.kept place with same | ⟨-, earlier, -⟩
    · exact .inr ⟨same ▸ absent, there, among⟩
    · rw [absent] at earlier
      cases earlier

/-- What was there stays. -/
theorem get?_of_some {entry : Entry} (extended : Extended ways before after)
    (there : before.get? place = some entry) : after.get? place = some entry := by
  rcases extended.kept place with same | ⟨absent, -⟩
  · rw [same, there]
  · rw [there] at absent
    cases absent

theorem grown (extended : Extended ways before after) : Grown before after :=
  ⟨extended.base, fun _ => extended.get?_of_some⟩

theorem of_set (leads : tree.resolve path = .ok place) (absent : tree.get? place = none) :
    Extended (placesOf tree.base path) tree (tree.set place .directory) := by
  have free : tree.get? place ≠ some .directory := by simp [absent]
  refine ⟨rfl, fun other => ?_⟩
  rw [get?_set (ne_root_of_free free)]
  by_cases same : other = place
  · rw [if_pos same, same]
    exact .inr ⟨absent, rfl, mem_placesOf_of_resolve leads⟩
  · rw [if_neg same]
    exact .inl rfl

theorem of_makeDirectory (made : tree.makeDirectory path = .ok after) :
    Extended (placesOf tree.base path) tree after := by
  obtain ⟨place, leads, absent, -, rfl⟩ := makeDirectory_eq_ok_iff.mp made
  exact of_set leads absent

end Extended

end FileTree

open FileTree (Extended)

/-- Whether or not all directories can be made, nothing else comes up. -/
theorem extended_of_outcome_makeDirectories {result : Except FileFault Unit} {tree after : FileTree}
    (ended : outcome (makeDirectories path) tree = (result, after)) :
    Extended (placesOf tree.base path) tree after := by
  have left := outcome_makeDirectoriesWithin_rule
    (R := fun path before after => Extended (placesOf before.base path) before after)
    (fun _ tree => .refl _ tree) (fun _ _ _ made => .of_makeDirectory made)
    (fun _ _ before between _ outer first second => by
      have start := first.mono (placesOf_parent_subset before.base outer)
      rw [start.base] at second
      exact start.trans second)
    (path.length + 1) path tree
  rw [makeDirectories] at ended
  rw [ended] at left
  exact left

/-! ## Paths that do not lead back -/

namespace FileTree

variable {tree between : FileTree} {start place : Place} {names : List String}

/-- Without two dots every name leads on. -/
theorem place_eq_of_walk (forward : ".." ∉ names) (walked : tree.walk start names = .ok place) :
    place = start ++ names := by
  induction names generalizing start with
  | nil => rw [Except.ok.inj walked, List.append_nil]
  | cons name rest ih =>
      rw [List.mem_cons, not_or] at forward
      obtain ⟨next, stepped, onwards⟩ := walk_cons_eq_ok_iff.mp walked
      rcases (step_eq_ok_iff.mp stepped).2 with ⟨back, -⟩ | ⟨-, -, rfl⟩
      · exact absurd back.symm forward.1
      · rw [ih forward.2 onwards, List.append_assoc, List.singleton_append]

/-- What stands at a place can be reached by the names of that place. -/
theorem WellFormed.walk_of_there {entry : Entry} (wellFormed : tree.WellFormed)
    (forward : ".." ∉ names) (walked : between.walk start names = .ok place)
    (there : tree.get? place = some entry) : tree.walk start names = .ok place := by
  have whole := place_eq_of_walk forward walked
  induction names generalizing start with
  | nil => exact walked
  | cons name rest ih =>
      rw [List.mem_cons, not_or] at forward
      obtain ⟨next, stepped, onwards⟩ := walk_cons_eq_ok_iff.mp walked
      have above : tree.get? start = some .directory := by
        rw [whole] at there
        exact wellFormed.directory_of_below (List.cons_ne_nil name rest) there
      have led : tree.step start name = .ok next :=
        step_eq_ok_iff.mpr ⟨above, (step_eq_ok_iff.mp stepped).2⟩
      exact walk_cons_eq_ok_iff.mpr
        ⟨next, led, ih forward.2 onwards (place_eq_of_walk forward.2 onwards)⟩

/-- A path that leads to a file leads to it in a tree in which its names do. -/
theorem resolve_of_walk (leads : between.resolve path = .ok place)
    (free : between.get? place ≠ some .directory)
    (walked : tree.walk (if isAbsolute path then [] else tree.base) (Files.names path) =
      .ok place) : tree.resolve path = .ok place := by
  obtain ⟨clean, named, -, dotted⟩ := resolve_eq_ok_iff.mp leads
  exact resolve_eq_ok_iff.mpr ⟨clean, named, walked, fun ends => absurd (dotted ends) free⟩

end FileTree

end BlockForge.Files
