/-
# Files in a directory

A name without slashes that is not one of the dots stands for one thing in a directory. Joined to
the path of the directory it leads there, one name further than the directory itself, however that
path is written. So the paths of two such names in one directory do not lead to the same place.
-/

import BlockForge.Proofs.Files.Sibling
import BlockForge.Proofs.Text.Split

namespace BlockForge.Files

variable {directory name other : String}

/-- A name of one thing in a directory. -/
structure IsName (name : String) : Prop where
  inside : ∀ c ∈ name.toList, (c == '/') = false
  named : name ≠ ""
  ahead : name ≠ "."
  notBack : name ≠ ".."

theorem names_empty : names "" = [] := by decide

theorem IsName.names_self (isName : IsName name) : names name = [name] := by
  rw [names, Text.splitWhere_of_all isName.inside, List.map_singleton, String.ofList_toList,
    List.filter_cons_of_pos (by simp [isName.named, isName.ahead]), List.filter_nil]

theorem names_separated (front back : List Char) :
    names (String.ofList (front ++ '/' :: back)) =
      names (String.ofList front) ++ names (String.ofList back) := by
  simp only [names, String.toList_ofList]
  rw [Text.splitWhere_separated rfl, List.map_append, List.filter_append]

theorem IsName.not_absolute (isName : IsName name) : isAbsolute name = false := by
  rw [isAbsolute]
  cases chars : name.toList with
  | nil => rfl
  | cons c rest =>
      have inside := isName.inside c (by rw [chars]; exact List.mem_cons_self)
      simpa using inside

/-- What is joined to a directory is one name further. -/
theorem IsName.names_join (isName : IsName name) (directory : String) :
    names (join directory name) = names directory ++ [name] := by
  rw [join, isName.not_absolute, Bool.false_or]
  split
  · rename_i empty
    rw [String.isEmpty_iff.mp empty, names_empty, isName.names_self]
    rfl
  · split
    · rename_i slash
      obtain ⟨front, chars⟩ := List.getLast?_eq_some_iff.mp (beq_iff_eq.mp slash)
      have own : directory = String.ofList (front ++ '/' :: []) := by
        rw [← String.toList_inj, chars, String.toList_ofList]
      have whole : directory ++ name = String.ofList (front ++ '/' :: name.toList) := by
        rw [← String.toList_inj]
        simp [chars]
      rw [whole, own, names_separated, names_separated, String.ofList_toList, isName.names_self]
      show _ = (names (String.ofList front) ++ names "") ++ [name]
      rw [names_empty, List.append_nil]
    · have whole : directory ++ "/" ++ name =
          String.ofList (directory.toList ++ '/' :: name.toList) := by
        rw [← String.toList_inj]
        simp
      rw [whole, names_separated, String.ofList_toList, String.ofList_toList, isName.names_self]

theorem IsName.isAbsolute_join (isName : IsName name) (directory : String) :
    isAbsolute (join directory name) = isAbsolute directory := by
  rw [join, isName.not_absolute, Bool.false_or]
  split
  · rename_i empty
    rw [String.isEmpty_iff.mp empty, isName.not_absolute]
    rfl
  · rename_i nonempty
    have named : directory ≠ "" := by simpa using nonempty
    split
    · exact FileTree.isAbsolute_append named _
    · rw [String.append_assoc]
      exact FileTree.isAbsolute_append named _

/-- A path into a directory is not written as that of a directory. -/
theorem IsName.namesDirectory_join (isName : IsName name) (directory : String) :
    FileTree.namesDirectory (join directory name) = false := by
  have own : name.toList ≠ [] := by simpa using isName.named
  obtain ⟨front, last, chars⟩ := (List.eq_nil_or_concat name.toList).resolve_left own
  have inside := isName.inside last (by simp [chars])
  have ends : ∃ ahead, (join directory name).toList = ahead ++ [last] := by
    rw [join]
    split
    · exact ⟨front, by simp [chars]⟩
    · split
      · exact ⟨directory.toList ++ front, by simp [chars]⟩
      · exact ⟨directory.toList ++ '/' :: front, by simp [chars]⟩
  obtain ⟨ahead, chars⟩ := ends
  rw [FileTree.namesDirectory, chars, List.getLast?_concat]
  simpa using inside

/-- The extension of a path into a directory is that of the name. -/
theorem IsName.extension_join {stem ending : String} (isName : IsName (stem ++ "." ++ ending))
    (named : stem ≠ "") (single : '.' ∉ ending.toList) (directory : String) :
    extension (join directory (stem ++ "." ++ ending)) = ending := by
  have last : fileName? (join directory (stem ++ "." ++ ending)) =
      some (stem ++ "." ++ ending) := by
    rw [fileName?, isName.names_join, List.getLast?_concat]
    dsimp only
    rw [if_neg isName.notBack]
  have chars : (stem ++ "." ++ ending).toList.reverse =
      ending.toList.reverse ++ '.' :: stem.toList.reverse := by simp
  have plain : ∀ c ∈ ending.toList.reverse, (c != '.') = true := by
    intro c held
    rw [bne_iff_ne]
    rintro rfl
    exact single (List.mem_reverse.mp held)
  obtain ⟨taken, left⟩ := Text.takeWhile_append_stop plain
    (show ('.' :: stem.toList.reverse).takeWhile (· != '.') = [] by simp)
  have further : stem.toList.reverse ≠ [] := by simpa using named
  obtain ⟨c, rest, reversed⟩ := List.exists_cons_of_ne_nil further
  rw [extension, last]
  dsimp only
  rw [chars, taken, left, reversed, List.reverse_reverse, String.ofList_toList]

namespace FileTree

variable {tree : FileTree} {place parent : Place}

/-- A directory stands at the end of a path. An empty path is that of the working directory. -/
def StandsAt (tree : FileTree) (directory : String) (place : Place) : Prop :=
  tree.walk (if isAbsolute directory then [] else tree.base) (names directory) = .ok place ∧
    tree.get? place = some .directory

theorem StandsAt.unique (stands : tree.StandsAt directory place)
    (too : tree.StandsAt directory parent) : place = parent :=
  Except.ok.inj (stands.1.symm.trans too.1)

/-- A path into a directory leads to a place right below it. -/
theorem child_of_resolve_join (isName : IsName name)
    (leads : tree.resolve (join directory name) = .ok place) :
    ∃ parent, tree.StandsAt directory parent ∧ place = parent ++ [name] := by
  obtain ⟨-, -, walked, -⟩ := resolve_eq_ok_iff.mp leads
  rw [isName.isAbsolute_join, isName.names_join] at walked
  obtain ⟨parent, start, stepped⟩ := walk_concat_eq_ok_iff.mp walked
  obtain ⟨there, ⟨back, -⟩ | ⟨-, -, forth⟩⟩ := step_eq_ok_iff.mp stepped
  · exact absurd back isName.notBack
  · exact ⟨parent, ⟨start, there⟩, forth⟩

/-- A path into a directory that does not lead to a directory takes a file. -/
theorem takesFile_join (isName : IsName name)
    (leads : tree.resolve (join directory name) = .ok place)
    (free : tree.get? place ≠ some .directory) : TakesFile tree (join directory name) place where
  leads := leads
  single := isName.namesDirectory_join directory
  free := free
  above := by
    obtain ⟨parent, stands, rfl⟩ := child_of_resolve_join isName leads
    rw [List.dropLast_concat]
    exact stands.2

theorem takesFile_of_write_join (isName : IsName name) {content : Content} {after : FileTree}
    (written : tree.write (join directory name) content = .ok after) :
    ∃ place, TakesFile tree (join directory name) place ∧
      after = tree.set place (.file content) := by
  obtain ⟨place, leads, -, free, -, rfl⟩ := write_eq_ok_iff.mp written
  exact ⟨place, takesFile_join isName leads free, rfl⟩

/-- Where nothing is at a path that leads somewhere, nothing is at the place it leads to. -/
theorem get?_of_isThere_eq_false (isName : IsName name)
    (leads : tree.resolve (join directory name) = .ok place)
    (gone : tree.isThere (join directory name) = false) : tree.get? place = none := by
  rw [isThere, entryAt, leads] at gone
  cases there : tree.get? place with
  | none => rfl
  | some entry =>
      cases entry <;> simp [there, isName.namesDirectory_join directory] at gone

end FileTree

end BlockForge.Files
