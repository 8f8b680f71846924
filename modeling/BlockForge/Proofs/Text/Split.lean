/-
# Taking a text apart

Lines, names and words are pieces of a text between the places at which it is cut. A text is cut
along its characters from the back. What is wanted of it is told from the front: a text that is put
together around a separator has the pieces of both of its parts.

Readers take the characters of one kind off the front of a text and go on with what is left. What
they take is known where a text is put together from two parts: it is the first part, if all of it
is of the kind and the second part does not start with that kind.
-/

import BlockForge.Text.Words
import Mathlib.Data.List.TakeWhile

namespace BlockForge.Text

/-! ## The front of a text -/

variable {kind : Char → Bool} {front back : List Char}

/-- A character of a kind is none that is not of this kind. -/
theorem ne_of_kind {c d : Char} (own : kind c = true) (other : kind d = false) : c ≠ d := by
  rintro rfl
  rw [own] at other
  cases other

theorem takeWhile_append_stop (all : ∀ c ∈ front, kind c) (stops : back.takeWhile kind = []) :
    (front ++ back).takeWhile kind = front ∧ (front ++ back).dropWhile kind = back := by
  have whole := List.takeWhile_append_dropWhile (p := kind) (l := back)
  rw [stops, List.nil_append] at whole
  exact ⟨by rw [List.takeWhile_append_of_pos all, stops, List.append_nil],
    by rw [List.dropWhile_append_of_pos all, whole]⟩

/-- Only the first character of what follows matters. -/
theorem takeWhile_append_head (all : ∀ c ∈ front, kind c)
    (other : ∀ c ∈ back.head?, kind c = false) :
    (front ++ back).takeWhile kind = front ∧ (front ++ back).dropWhile kind = back := by
  apply takeWhile_append_stop all
  cases back with
  | nil => rfl
  | cons c rest => simp [other c rfl]

/-- What stands before the first place of a character. -/
theorem takeWhile_eq_front {last : Char} (outside : last ∉ front) (rest : List Char) :
    (front ++ last :: rest).takeWhile (· != last) = front := by
  refine (takeWhile_append_stop (fun c held => ?_) (by simp)).1
  rw [bne_iff_ne]
  rintro rfl
  exact outside held

/-! ## Pieces between separators -/

variable {separates : Char → Bool}

theorem splitWhere_cons (c : Char) (rest : List Char) : splitWhere separates (c :: rest) =
    if separates c then [] :: splitWhere separates rest
    else
      match splitWhere separates rest with
      | [] => [[c]]
      | piece :: others => (c :: piece) :: others :=
  rfl

theorem splitWhere_ne_nil (text : List Char) : splitWhere separates text ≠ [] := by
  cases text with
  | nil => exact List.cons_ne_nil _ _
  | cons c rest =>
      rw [splitWhere_cons]
      split
      · exact List.cons_ne_nil _ _
      · split <;> exact List.cons_ne_nil _ _

/-- A text is cut at a separator into the pieces of what stands before and behind it. -/
theorem splitWhere_separated {c : Char} (cut : separates c = true) (front back : List Char) :
    splitWhere separates (front ++ c :: back) =
      splitWhere separates front ++ splitWhere separates back := by
  induction front with
  | nil =>
      rw [List.nil_append, splitWhere_cons, if_pos cut]
      rfl
  | cons first front ih =>
      obtain ⟨piece, others, pieces⟩ :=
        List.exists_cons_of_ne_nil (l := splitWhere separates front) (splitWhere_ne_nil front)
      rw [List.cons_append, splitWhere_cons, splitWhere_cons, ih, pieces]
      split <;> rfl

/-- A text without separators is one piece. -/
theorem splitWhere_of_all {text : List Char}
    (none : ∀ c ∈ text, separates c = false) : splitWhere separates text = [text] := by
  induction text with
  | nil => rfl
  | cons c rest ih =>
      have others := ih fun other among => none other (List.mem_cons_of_mem c among)
      rw [splitWhere] at others ⊢
      rw [List.foldr_cons, others, none c List.mem_cons_self]
      rfl

/-- What holds no separator and is put behind a text ends up behind its last piece. -/
theorem splitWhere_append {suffix : List Char}
    (none : ∀ c ∈ suffix, separates c = false) (text : List Char) :
    ∃ front last, splitWhere separates text = front ++ [last] ∧
      splitWhere separates (text ++ suffix) = front ++ [last ++ suffix] := by
  induction text with
  | nil => exact ⟨[], [], rfl, splitWhere_of_all none⟩
  | cons c rest ih =>
      obtain ⟨front, last, split, splitToo⟩ := ih
      rw [splitWhere] at split splitToo
      rw [List.cons_append, splitWhere, splitWhere, List.foldr_cons, List.foldr_cons, split,
        splitToo]
      cases separates c with
      | true => exact ⟨[] :: front, last, rfl, rfl⟩
      | false =>
          cases front with
          | nil => exact ⟨[], c :: last, rfl, rfl⟩
          | cons first front => exact ⟨(c :: first) :: front, last, rfl, rfl⟩

end BlockForge.Text
