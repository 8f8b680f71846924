/-
# Lists of a library

A list of a library shows every item once, those that were written later first. It goes by the times
at which items were written, as far as these differ; among items of one time it goes by the order of
the writes themselves. So a clock that stands still leaves the order of the writes, and one that was
set back is believed. If the clock never goes back, the times say nothing else than the order of the
writes.

A list shows nothing of the stored descriptions, so that a library in a file shows the list of one
in memory.
-/

import BlockForge.Proofs.Library.Columns
import BlockForge.Proofs.Lists

namespace BlockForge

/-! ## Order of times -/

namespace Timestamp

variable {a b c : Timestamp}

theorem isBefore_iff : a.isBefore b = true ↔ a.fields < b.fields := by
  simp [isBefore, fieldsBefore, fields, List.cons_lt_cons_iff]

theorem isBefore_eq_false_iff : a.isBefore b = false ↔ b.fields ≤ a.fields := by
  rw [← Bool.not_eq_true, isBefore_iff, not_lt]

/-- Two times of the same fields are the same. -/
theorem eq_of_fields (same : a.fields = b.fields) : a = b := by
  obtain ⟨⟨_, _, _, _⟩, _, _, _, _, _⟩ := a
  obtain ⟨⟨_, _, _, _⟩, _, _, _, _, _⟩ := b
  simpa [fields, and_assoc] using same

/-- Of two different times, one is before the other one. -/
theorem eq_of_not_isBefore (here : a.isBefore b = false) (there : b.isBefore a = false) : a = b :=
  eq_of_fields (le_antisymm (isBefore_eq_false_iff.mp there) (isBefore_eq_false_iff.mp here))

end Timestamp

namespace Library

open BlockForge.Files

namespace Table

theorem listedBefore_iff {a b : Summary} :
    listedBefore a b = true ↔ b.updatedAt.fields ≤ a.updatedAt.fields := by
  rw [listedBefore, Bool.not_eq_true', Timestamp.isBefore_eq_false_iff]

theorem listedBefore_trans (a b c : Summary) (first : listedBefore a b) (second : listedBefore b c) :
    listedBefore a c :=
  listedBefore_iff.mpr ((listedBefore_iff.mp second).trans (listedBefore_iff.mp first))

theorem listedBefore_total (a b : Summary) : (listedBefore a b || listedBefore b a) = true := by
  rw [Bool.or_eq_true, listedBefore_iff, listedBefore_iff]
  exact le_total _ _

end Table

/-! ## Summaries in order -/

/-- A list shows every item of a history once. What is shown first was written at a later time, or
at the same time and by a later write. -/
structure History.ListedInOrder (history : History) (summaries : List Summary) : Prop where
  complete : summaries.Perm (history.table.items.map Item.summary)
  once : (summaries.map (·.id)).Nodup
  ordered : summaries.Pairwise fun first second =>
    second.updatedAt.isBefore first.updatedAt = true ∨
      (first.updatedAt = second.updatedAt ∧ [second.id, first.id].Sublist history.writes.dedup)

namespace Table

variable {table : Table}

theorem list_perm (table : Table) : table.list.Perm (table.items.map Item.summary) :=
  (List.mergeSort_perm _ _).trans ((List.reverse_perm _).map _)

theorem Coherent.ids_eq_keys (coherent : table.Coherent) : table.items.map (·.id) = table.keys := by
  rw [items, keys, List.map_map]
  exact List.map_congr_left fun entry held => (coherent.keyed entry held).symm

/-- The identifiers of a table stand in the summaries too. -/
theorem Coherent.summaries_ids (coherent : table.Coherent) :
    (table.items.map Item.summary).map (·.id) = table.keys := by
  rw [List.map_map]
  exact coherent.ids_eq_keys

end Table

variable {requests : List Request} {history : History}

/-- The list of a run shows every item once and in order, whatever the clock has shown. -/
theorem Run.listedInOrder (run : Run requests history) :
    history.ListedInOrder history.table.list := by
  have coherent := run.coherent
  have perm := history.table.list_perm
  have ids := coherent.summaries_ids
  have distinct : (history.table.items.map Item.summary).Nodup := by
    apply List.Nodup.of_map (·.id)
    rw [ids]
    exact coherent.keysDistinct
  constructor
  case complete => exact perm
  case once =>
    rw [(perm.map (·.id)).nodup_iff, ids]
    exact coherent.keysDistinct
  case ordered =>
    have distinctReversed : (history.table.items.reverse.map Item.summary).Nodup := by
      rw [List.map_reverse]
      exact List.nodup_reverse.mpr distinct
    have sorted := pairwise_mergeSort_stable Table.listedBefore_trans Table.listedBefore_total
      distinctReversed
    apply sorted.imp
    intro first second ⟨notEarlier, inOrder⟩
    cases later : second.updatedAt.isBefore first.updatedAt with
    | true => exact .inl rfl
    | false =>
        have tied : Table.listedBefore second first = true := by
          rw [Table.listedBefore, later]
          rfl
        refine .inr ⟨Timestamp.eq_of_not_isBefore (by simpa [Table.listedBefore] using notEarlier)
          later, ?_⟩
        -- A pair of the reversed table is a pair of the table, and so of the writes.
        have pair := (inOrder tied).map (·.id) |>.reverse
        rw [List.map_reverse, List.map_reverse, List.reverse_reverse, ids] at pair
        exact pair.trans run.keys_sublist

/-! ## A clock that never goes back -/

/-- The time at which an item was written is the one that the request drew. -/
theorem Writes.reading {table : Table} {request : Request} {item : Item}
    (writes : Writes table request item) : request.reading? = some item.updatedAt := by
  obtain ⟨block, now, reading, new | ⟨old, -, overwritten⟩⟩ := writes.origin
  · rw [reading, new]
    rfl
  · rw [reading, overwritten]
    rfl

/-- While the clock does not go back, items stand in the order of the times at which they were
written. -/
theorem Run.items_forward (run : Run requests history)
    (forward : Forward (requests.filterMap Request.reading?)) :
    (∀ item ∈ history.table.items, item.updatedAt ∈ requests.filterMap Request.reading?) ∧
      history.table.items.Pairwise fun earlier later =>
        later.updatedAt.isBefore earlier.updatedAt = false := by
  induction run with
  | start => exact ⟨by simp [History.start, Table.empty, Table.items], List.Pairwise.nil⟩
  | @next requests history earlier request unused ih =>
      rw [List.filterMap_append] at forward ⊢
      obtain ⟨forwardBefore, -, across⟩ := List.pairwise_append.mp forward
      obtain ⟨drawn, inOrder⟩ := ih forwardBefore
      have kept {key : String} :
          ((history.table.erase key).items).Sublist history.table.items :=
        List.filter_sublist.map _
      rcases History.step_cases earlier.coherent unused with same | ⟨item, writes, same⟩ |
        ⟨key, same⟩
      · rw [same]
        exact ⟨fun item held => List.mem_append_left _ (drawn item held), inOrder⟩
      · have drawnNow : item.updatedAt ∈ [request].filterMap Request.reading? := by
          simp [writes.reading]
        rw [same, Table.items_written]
        constructor
        · intro other held
          rcases List.mem_append.mp held with before | last
          · exact List.mem_append_left _ (drawn other (kept.subset before))
          · rw [List.mem_singleton.mp last]
            exact List.mem_append_right _ drawnNow
        · apply List.pairwise_append.mpr
          refine ⟨inOrder.sublist kept, List.pairwise_singleton _ _, ?_⟩
          intro other held _ last
          rw [List.mem_singleton.mp last]
          exact across _ (drawn other (kept.subset held)) _ drawnNow
      · rw [same]
        exact ⟨fun item held => List.mem_append_left _ (drawn item (kept.subset held)),
          inOrder.sublist kept⟩

/-- If the clock never goes back, a list shows the items of a table from the last to the first. -/
theorem Run.list_forward (run : Run requests history)
    (forward : Forward (requests.filterMap Request.reading?)) :
    history.table.list = history.table.items.reverse.map Item.summary := by
  obtain ⟨-, inOrder⟩ := run.items_forward forward
  apply List.mergeSort_of_pairwise
  rw [List.pairwise_map, List.pairwise_reverse]
  apply inOrder.imp
  intro earlier later notBefore
  rw [Table.listedBefore, Bool.not_eq_true']
  exact notBefore

/-- These are the identifiers that were written and are there, the one written last first. -/
theorem Run.list_ids_forward (run : Run requests history)
    (forward : Forward (requests.filterMap Request.reading?)) :
    history.table.list.map (·.id) =
      (history.writes.dedup.filter (· ∈ history.table.keys)).reverse := by
  have written : history.table.keys = history.writes.dedup.filter (· ∈ history.table.keys) :=
    eq_filter_of_sublist run.keys_sublist (List.nodup_dedup _) fun _ _ => Iff.rfl
  rw [run.list_forward forward, List.map_reverse, List.map_reverse,
    run.coherent.summaries_ids, ← written]

/-! ## Lists in memory and in files -/

/-- What a store gives for a list after some calls. -/
def listAfter {σ : Type} (store : Store fun α => ExceptT Failure (StateM σ) α) (calls : List Call)
    (state : σ) : Except Failure Reply :=
  (outcome (Call.list.on store) (serve store calls state).2).1

theorem Run.listAfter_memoryStore {calls : List Call}
    (run : Run (calls.filterMap Call.request?) history) :
    listAfter memoryStore calls .empty = .ok (.listed history.table.list) := by
  rw [listAfter, outcome_on_memoryStore, serve_memoryStore, run.replay_eq]
  rfl

theorem Run.listAfter_fileStore {calls : List Call}
    (run : Run (calls.filterMap Call.request?) history) {path : String} {tree : FileTree}
    (vacant : Vacant path tree) (fits : ∀ block ∈ calls.filterMap Call.block?, block.Fits) :
    listAfter (fileStore path) calls tree = .ok (.listed history.table.list) := by
  have represents : Represents path tree .empty := .inl ⟨vacant, rfl⟩
  obtain ⟨-, last, -⟩ := represents.serve Table.sound_empty (Call.forall_brought_iff.mp fits)
  obtain ⟨after, answered, -⟩ := last.outcome_query fun table => .ok (Reply.listed table.list)
  have listed : (replay .reread calls .empty).2.list = history.table.list := by
    rw [← run.replay_eq]
    exact Table.list_eq_of_bare (bare_replay calls rfl)
  rw [← listed]
  exact congrArg Prod.fst answered

/-- After any calls, a library lists every item once: those first that were written at a later time,
and of those that were written at one time, those first that were written by a later call. If the
clock never went back, these are the items in reverse order of their last writes. A library in a
file, which writes its table and reads it anew for every call, gives the same list. -/
theorem Run.list_exact {calls : List Call} (run : Run (calls.filterMap Call.request?) history) :
    ∃ summaries, history.ListedInOrder summaries ∧
      (Forward ((calls.filterMap Call.request?).filterMap Request.reading?) →
        summaries.map (·.id) =
          (history.writes.dedup.filter (· ∈ history.table.keys)).reverse) ∧
      listAfter memoryStore calls .empty = .ok (.listed summaries) ∧
      ∀ path tree, Vacant path tree → (∀ block ∈ calls.filterMap Call.block?, block.Fits) →
        listAfter (fileStore path) calls tree = .ok (.listed summaries) :=
  ⟨history.table.list, run.listedInOrder, run.list_ids_forward, run.listAfter_memoryStore,
    fun _ _ vacant fits => run.listAfter_fileStore vacant fits⟩

/-- Within one hour two items are saved, the library is listed, and the first item is overwritten. -/
def callsOfOneHour : List Call :=
  [.save "p" (emptyBlock "a") firstHour, .save "q" (emptyBlock "b") firstHour, .list,
    .overwrite "p" (emptyBlock "c") firstHour]

theorem Run.list_exact_callsOfOneHour : ∃ summaries, summaries.map (·.id) = ["p", "q"] ∧
    listAfter memoryStore callsOfOneHour .empty = .ok (.listed summaries) ∧
    listAfter (fileStore "library.json") callsOfOneHour .empty = .ok (.listed summaries) := by
  have savedOne := Run.next .start (.save "p" (emptyBlock "a") firstHour) fun _ => by decide
  have savedTwo := savedOne.next (.save "q" (emptyBlock "b") firstHour) fun _ => by decide
  have run : Run (callsOfOneHour.filterMap Call.request?) _ :=
    savedTwo.next (.overwrite "p" (emptyBlock "c") firstHour) trivial
  obtain ⟨summaries, -, inOrder, memory, file⟩ := Run.list_exact run
  have forward : Forward
      ((callsOfOneHour.filterMap Call.request?).filterMap Request.reading?) := by
    rw [Forward]
    decide
  have fits : ∀ block ∈ callsOfOneHour.filterMap Call.block?, block.Fits := by
    simp [callsOfOneHour, Call.block?, emptyBlock, Description.Fits, Description.allFields]
  refine ⟨summaries, ?_, memory, file _ _ vacant_empty fits⟩
  rw [inOrder forward]
  decide

end Library

end BlockForge
