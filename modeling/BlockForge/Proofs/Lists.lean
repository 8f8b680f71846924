/-
# Lists in order

What a list says by its order is said here by its pairs: one item comes before another one if the
two of them are a sublist. In a list without repetitions two items come in one order only. Sorting
keeps it for items that may stand in either order.
-/

import Mathlib.Data.List.Nodup

namespace BlockForge

variable {α : Type}

/-- Part of a list, in its order, is what a property selects from it. -/
theorem eq_filter_of_sublist {part whole : List α} {p : α → Prop} [DecidablePred p]
    (ordered : part.Sublist whole) (distinct : whole.Nodup)
    (mem_iff : ∀ a ∈ whole, a ∈ part ↔ p a) : part = whole.filter p := by
  have kept : part.filter p = part := List.filter_eq_self.mpr fun a held =>
    decide_eq_true ((mem_iff a (ordered.subset held)).mp held)
  have inside : part.Sublist (whole.filter p) := by
    have filtered := ordered.filter p
    rwa [kept] at filtered
  refine inside.eq_of_length (List.Perm.length_eq ?_)
  rw [List.perm_ext_iff_of_nodup (distinct.sublist ordered) (distinct.filter _)]
  intro a
  rw [List.mem_filter, decide_eq_true_eq]
  exact ⟨fun held => ⟨ordered.subset held, (mem_iff a (ordered.subset held)).mp held⟩,
    fun ⟨among, holds⟩ => (mem_iff a among).mpr holds⟩

variable {items : List α} {a b : α}

/-- Of two items of a list, one comes before the other one. -/
theorem pair_sublist_or_swap (held : a ∈ items) (heldToo : b ∈ items) (other : a ≠ b) :
    [a, b].Sublist items ∨ [b, a].Sublist items := by
  obtain ⟨front, back, rfl⟩ := List.append_of_mem held
  rcases List.mem_append.mp heldToo with earlier | later
  · exact .inr ((List.singleton_sublist.mpr earlier).append (by simp))
  · have behind : b ∈ back := List.mem_of_ne_of_mem other.symm later
    have pair : [a, b].Sublist (a :: back) := (List.singleton_sublist.mpr behind).cons_cons a
    exact .inl (pair.trans (List.sublist_append_right front _))

/-- The items of a pair come in one order only where no item stands twice. -/
theorem not_pair_sublist_swap (distinct : items.Nodup) (before : [a, b].Sublist items) :
    ¬ [b, a].Sublist items := by
  induction items with
  | nil => cases before
  | cons first rest ih =>
      obtain ⟨fresh, others⟩ := List.nodup_cons.mp distinct
      intro after
      cases before with
      | cons _ inRest =>
          cases after with
          | cons _ inRestToo => exact ih others inRest inRestToo
          | cons_cons _ last => exact fresh (inRest.subset (by simp))
      | cons_cons _ last =>
          cases after with
          | cons _ inRest => exact fresh (inRest.subset (by simp))
          | cons_cons _ lastToo => exact fresh (lastToo.subset (by simp))

/-- Items that may stand in either order stay in theirs where a list is sorted. -/
theorem pairwise_mergeSort_stable {le : α → α → Bool}
    (trans : ∀ x y z, le x y → le y z → le x z) (total : ∀ x y, (le x y || le y x) = true)
    (distinct : items.Nodup) :
    (items.mergeSort le).Pairwise fun x y => le x y ∧ (le y x → [x, y].Sublist items) := by
  have perm := List.mergeSort_perm items le
  have distinctSorted : (items.mergeSort le).Nodup := perm.nodup_iff.mpr distinct
  rw [List.pairwise_iff_forall_sublist]
  intro x y before
  have sorted := List.pairwise_mergeSort trans total items
  apply And.intro (List.pairwise_iff_forall_sublist.mp sorted before)
  intro tied
  have held := perm.mem_iff.mp (before.subset List.mem_cons_self)
  have heldToo := perm.mem_iff.mp (before.subset (List.mem_cons_of_mem _ List.mem_cons_self))
  have other : x ≠ y := List.pairwise_iff_forall_sublist.mp distinctSorted before
  rcases pair_sublist_or_swap held heldToo other with same | swapped
  · exact same
  · have kept := List.pair_sublist_mergeSort trans total tied swapped
    exact absurd kept (not_pair_sublist_swap distinctSorted before)

end BlockForge
