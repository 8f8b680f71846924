/-
# Files beside a file

A file that belongs to another one has the same path with a suffix behind it. Wherever the two
paths lead, they do not lead to the same place: the suffix becomes part of the last name, and the
last name of the first path is another one, or two dots, or it stands for nothing.
-/

import BlockForge.Proofs.Files.Content
import BlockForge.Proofs.Text.Split

namespace BlockForge.Files

variable {path suffix : String}

/-- A suffix that makes a name of whatever it is put behind. -/
structure IsSuffix (suffix : String) : Prop where
  inside : ∀ c ∈ suffix.toList, (c == '/') = false
  long : 2 < suffix.toList.length

theorem IsSuffix.ne_of_length (isSuffix : IsSuffix suffix) (front : String) {name : String}
    (short : name.toList.length ≤ 2) : front ++ suffix ≠ name := by
  intro same
  rw [← same, String.toList_append, List.length_append] at short
  have long := isSuffix.long
  omega

/-- The suffix of a path becomes part of its last name, if that is one. -/
theorem IsSuffix.names_append (isSuffix : IsSuffix suffix) (path : String) :
    ∃ front last, (names path = front ∨ names path = front ++ [last]) ∧
      names (path ++ suffix) = front ++ [last ++ suffix] := by
  obtain ⟨front, last, split, splitToo⟩ := Text.splitWhere_append isSuffix.inside path.toList
  have named : String.ofList (last ++ suffix.toList) = String.ofList last ++ suffix := by
    rw [String.ofList_append, String.ofList_toList]
  refine ⟨(front.map String.ofList).filter fun name => !name.isEmpty && name != ".",
    String.ofList last, ?_, ?_⟩
  · rw [names, split, List.map_append, List.filter_append, List.map_singleton, List.filter_cons,
      List.filter_nil]
    cases (!(String.ofList last).isEmpty && String.ofList last != ".") with
    | true => exact .inr rfl
    | false => exact .inl (List.append_nil _)
  · have counts : (!(String.ofList last ++ suffix).isEmpty && String.ofList last ++ suffix != ".")
        = true := by
      have nonempty : String.ofList last ++ suffix ≠ "" := isSuffix.ne_of_length _ (by decide)
      have notDot : String.ofList last ++ suffix ≠ "." := isSuffix.ne_of_length _ (by decide)
      simp_all
    rw [names, String.toList_append, splitToo, List.map_append, List.filter_append,
      List.map_singleton, List.filter_cons, List.filter_nil, named, counts]
    rfl

namespace FileTree

variable {tree : FileTree} {place other : Place}

theorem isAbsolute_append (named : path ≠ "") (suffix : String) :
    isAbsolute (path ++ suffix) = isAbsolute path := by
  rw [isAbsolute, isAbsolute, String.toList_append]
  have nonempty : path.toList ≠ [] := by simpa using named
  obtain ⟨c, rest, chars⟩ := List.exists_cons_of_ne_nil nonempty
  rw [chars]
  rfl

/-- A path and the same path with a suffix do not lead to the same place. -/
theorem ne_of_resolve_append (isSuffix : IsSuffix suffix) (leads : tree.resolve path = .ok place)
    (leadsToo : tree.resolve (path ++ suffix) = .ok other) : other ≠ place := by
  obtain ⟨-, named, walked, -⟩ := resolve_eq_ok_iff.mp leads
  obtain ⟨-, -, walkedToo, -⟩ := resolve_eq_ok_iff.mp leadsToo
  obtain ⟨front, last, ownNames, names⟩ := isSuffix.names_append path
  rw [isAbsolute_append named, names] at walkedToo
  obtain ⟨directory, start, stepped⟩ := walk_concat_eq_ok_iff.mp walkedToo
  have sibling : other = directory ++ [last ++ suffix] := by
    rcases (step_eq_ok_iff.mp stepped).2 with ⟨back, -⟩ | ⟨-, -, forth⟩
    · exact absurd back (isSuffix.ne_of_length last (by decide))
    · exact forth
  have own : place = directory ∨ place = directory.dropLast ∨ place = directory ++ [last] := by
    rcases ownNames with nothing | more
    · rw [nothing, start] at walked
      exact .inl (Except.ok.inj walked).symm
    · rw [more] at walked
      obtain ⟨parent, startToo, steppedToo⟩ := walk_concat_eq_ok_iff.mp walked
      obtain rfl := Except.ok.inj (start.symm.trans startToo)
      rcases (step_eq_ok_iff.mp steppedToo).2 with ⟨-, back⟩ | ⟨-, -, forth⟩
      · exact .inr (.inl back)
      · exact .inr (.inr forth)
  rintro rfl
  rw [sibling] at own
  rcases own with same | back | forth
  · simpa using congrArg List.length same
  · have lengths := congrArg List.length back
    rw [List.length_append, List.length_dropLast, List.length_singleton] at lengths
    omega
  · have same : last ++ suffix = last := by simpa using List.append_cancel_left forth
    have lengths := congrArg (fun name => name.toList.length) same
    have long := isSuffix.long
    simp only [String.toList_append, List.length_append] at lengths
    omega

end FileTree

end BlockForge.Files
