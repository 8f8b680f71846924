/-
# What a library answers

On a table that requests have left behind, each operation is that of a store in which every
code stands for one item. Saving a description always succeeds. Overwriting an item fails if
the item is not there, and otherwise only if another item has the code. Removing an item
fails only if the item is not there.

An operation that fails leaves the table as it was. One that writes an item puts it at the
end, under its identifier, and touches no other entry; so afterwards the item is found under
its identifier and under its code.
-/

import BlockForge.Proofs.Library.Run

namespace BlockForge.Library

/-- An item was written for a description: it stands last, all other entries are as they were
and in their order, and it is found under its identifier and under the code. -/
structure Puts (before after : Table) (item : Item) (block : Description) (now : Timestamp) :
    Prop where
  stored : item.stored = block.value.canonical
  mirrors : item.Mirrors
  updatedAt : item.updatedAt = now
  entries : after.entries = before.entries.filter (·.1 != item.id) ++ [(item.id, item)]
  others : ∀ key ≠ item.id, after.find? key = before.find? key
  get : after.get item.id = .ok item
  getCode : after.getCode block.code = .ok item

/-- Saving succeeds. It overwrites the item that has the code, and if there is none, it makes
an item under an identifier that was not in use. -/
def SavesByCode (table : Table) (fresh : String) (block : Description) (now : Timestamp) : Prop :=
  ∃ item replaced after,
    answer table (saving fresh block now) = (.ok (item.receipt replaced), after) ∧
    (replaced = true ↔ ∃ old ∈ table.items, old.code = block.code) ∧
    (∀ old ∈ table.items, old.code = block.code →
      item.id = old.id ∧ item.createdAt = old.createdAt) ∧
    (replaced = false → item.id = fresh ∧ fresh ∉ table.keys ∧ item.createdAt = now) ∧
    Puts table after item block now

/-- Overwriting fails for an unknown identifier, and for a known one exactly if another item
has the code, which is named. Otherwise the item keeps its identifier and time of making. -/
structure OverwritesOwnCode (table : Table) (key : String) (block : Description)
    (now : Timestamp) : Prop where
  notFound : answer table (updating key block now) = (.error (.notFound key), table) ↔
    ∀ item ∈ table.items, item.id ≠ key
  conflict : ∀ owner, answer table (updating key block now) =
      (.error (.conflict block.code owner), table) ↔
    (∃ item ∈ table.items, item.id = key) ∧
      ∃ other ∈ table.items, other.code = block.code ∧ other.id ≠ key ∧ other.id = owner
  overwritten : ∀ old ∈ table.items, old.id = key →
    (∀ other ∈ table.items, other.code = block.code → other.id = key) →
    ∃ item after, answer table (updating key block now) = (.ok item, after) ∧
      item.id = key ∧ item.createdAt = old.createdAt ∧ Puts table after item block now

/-- Removing fails for an unknown identifier, and otherwise takes out one item. -/
structure RemovesOne (table : Table) (key : String) : Prop where
  notFound : answer table (deleting key) = (.error (.notFound key), table) ↔
    ∀ item ∈ table.items, item.id ≠ key
  removed : (∃ item ∈ table.items, item.id = key) →
    ∃ after, answer table (deleting key) = (.ok (), after) ∧
      after.entries = table.entries.filter (·.1 != key) ∧
      after.get key = .error (.notFound key) ∧
      ∀ other ≠ key, after.find? other = table.find? other

namespace Table

variable {table : Table}

theorem get_of_find? {key : String} {item : Item} (found : table.find? key = some item) :
    table.get key = .ok item := by
  rw [get, found]

theorem getCode_of_findCode? {code : String} {item : Item}
    (found : table.findCode? code = some item) : table.getCode code = .ok item := by
  rw [getCode, found]

/-- A key is that of an entry exactly if it is the identifier of an item. -/
theorem Coherent.mem_keys_iff (coherent : table.Coherent) {key : String} :
    key ∈ table.keys ↔ ∃ item ∈ table.items, item.id = key := by
  constructor
  · intro mem
    obtain ⟨entry, held, rfl⟩ := List.mem_map.mp mem
    exact ⟨entry.2, List.mem_map_of_mem held, (coherent.keyed entry held).symm⟩
  · rintro ⟨item, held, rfl⟩
    obtain ⟨entry, mem, rfl⟩ := List.mem_map.mp held
    exact List.mem_map.mpr ⟨entry, mem, coherent.keyed entry mem⟩

theorem Coherent.find?_eq_none_iff_id (coherent : table.Coherent) {key : String} :
    table.find? key = none ↔ ∀ item ∈ table.items, item.id ≠ key := by
  rw [find?_eq_none_iff, coherent.mem_keys_iff]
  simp

/-- Writing an item for a description whose code no other item has. -/
theorem Coherent.puts_written (coherent : table.Coherent) {item : Item} {block : Description}
    {now : Timestamp} (sameCode : item.code = block.code)
    (stored : item.stored = block.value.canonical) (mirrors : item.Mirrors)
    (updatedAt : item.updatedAt = now)
    (own : ∀ other ∈ table.items, other.code = block.code → other.id = item.id) :
    Puts table (table.written item) item block now where
  stored := stored
  mirrors := mirrors
  updatedAt := updatedAt
  entries := rfl
  others key other := find?_written_of_ne other
  get := get_of_find? (find?_written_self item)
  getCode := by
    rw [← sameCode] at own ⊢
    have held : item ∈ (table.written item).items := by
      rw [items_written]
      simp
    exact getCode_of_findCode? ((coherent.written own).findCode?_eq_some held)

theorem Coherent.puts_replace (coherent : table.Coherent) {old : Item} {block : Description}
    (own : ∀ other ∈ table.items, other.code = block.code → other.id = old.id) (now : Timestamp) :
    Puts table (table.written (old.replace block now)) (old.replace block now) block now :=
  coherent.puts_written rfl rfl (old.mirrors_replace block now) rfl own

theorem Coherent.puts_make (coherent : table.Coherent) {block : Description}
    (absent : ∀ item ∈ table.items, item.code ≠ block.code) (fresh : String) (now : Timestamp) :
    Puts table (table.written (Item.make fresh block now)) (Item.make fresh block now) block now := by
  refine coherent.puts_written rfl rfl (Item.mirrors_make fresh block now) rfl ?_
  intro other held same
  exact absurd same (absent other held)

/-! ## Saving -/

theorem Coherent.savesByCode (coherent : table.Coherent) {fresh : String} {block : Description}
    (now : Timestamp) (unused : (Request.save fresh block now).Fresh table) :
    SavesByCode table fresh block now := by
  by_cases known : ∃ old ∈ table.items, old.code = block.code
  · obtain ⟨old, held, sameCode⟩ := known
    have only : ∀ other ∈ table.items, other.code = block.code → other = old := by
      intro other heldToo same
      exact coherent.eq_of_code heldToo held (same.trans sameCode.symm)
    refine ⟨old.replace block now, true, table.written (old.replace block now), ?_,
      iff_of_true rfl ⟨old, held, sameCode⟩, ?_, fun kept => absurd kept (by decide), ?_⟩
    · rw [answer_eq, saving, coherent.upsert_eq_replace held sameCode]
    · intro other heldToo same
      rw [only other heldToo same]
      exact ⟨rfl, rfl⟩
    · apply coherent.puts_replace
      intro other heldToo same
      rw [only other heldToo same]
  · have absent : ∀ item ∈ table.items, item.code ≠ block.code := by
      intro item held same
      exact known ⟨item, held, same⟩
    refine ⟨Item.make fresh block now, false, table.written (Item.make fresh block now), ?_,
      iff_of_false Bool.false_ne_true known, ?_, fun _ => ⟨rfl, unused absent, rfl⟩,
      coherent.puts_make absent fresh now⟩
    · rw [answer_eq, saving, upsert_eq_make absent (find?_eq_none_iff.mpr (unused absent))]
    · intro old held same
      exact absurd same (absent old held)

/-! ## Overwriting -/

theorem answer_updating_of_absent {key : String} (absent : table.find? key = none)
    (block : Description) (now : Timestamp) :
    answer table (updating key block now) = (.error (.notFound key), table) := by
  rw [answer_eq, updating, update_eq_notFound absent]

theorem Coherent.answer_updating_of_taken (coherent : table.Coherent) {key : String}
    {old owner : Item} (found : table.find? key = some old) (held : owner ∈ table.items)
    {block : Description} (sameCode : owner.code = block.code) (other : owner.id ≠ key)
    (now : Timestamp) :
    answer table (updating key block now) = (.error (.conflict block.code owner.id), table) := by
  rw [answer_eq, updating, coherent.update_eq_conflict found held sameCode other]

theorem Coherent.answer_updating_of_own (coherent : table.Coherent) {key : String} {old : Item}
    (found : table.find? key = some old) {block : Description}
    (own : ∀ other ∈ table.items, other.code = block.code → other.id = key) (now : Timestamp) :
    answer table (updating key block now) =
      (.ok (old.replace block now), table.written (old.replace block now)) := by
  rw [answer_eq, updating, coherent.update_eq_replace found own]

/-- An overwriting ends in one of three ways. -/
theorem Coherent.answer_updating_cases (coherent : table.Coherent) (key : String)
    (block : Description) (now : Timestamp) :
    ((∀ item ∈ table.items, item.id ≠ key) ∧
      answer table (updating key block now) = (.error (.notFound key), table)) ∨
    (∃ old ∈ table.items, old.id = key ∧
      ∃ owner ∈ table.items, owner.code = block.code ∧ owner.id ≠ key ∧
        answer table (updating key block now) =
          (.error (.conflict block.code owner.id), table)) ∨
    ∃ old ∈ table.items, old.id = key ∧
      answer table (updating key block now) =
        (.ok (old.replace block now), table.written (old.replace block now)) := by
  cases found : table.find? key with
  | none =>
      left
      exact ⟨coherent.find?_eq_none_iff_id.mp found, answer_updating_of_absent found block now⟩
  | some old =>
      have held := mem_items_of_find? found
      have sameId := coherent.id_of_find? found
      right
      by_cases taken : ∃ owner ∈ table.items, owner.code = block.code ∧ owner.id ≠ key
      · obtain ⟨owner, heldToo, sameCode, differs⟩ := taken
        exact .inl ⟨old, held, sameId, owner, heldToo, sameCode, differs,
          coherent.answer_updating_of_taken found heldToo sameCode differs now⟩
      · push Not at taken
        exact .inr ⟨old, held, sameId, coherent.answer_updating_of_own found taken now⟩

theorem Coherent.overwritesOwnCode (coherent : table.Coherent) (key : String)
    (block : Description) (now : Timestamp) : OverwritesOwnCode table key block now := by
  constructor
  case notFound =>
    constructor
    · intro refused
      rcases coherent.answer_updating_cases key block now with
        ⟨absent, -⟩ | ⟨old, -, -, owner, -, -, -, answered⟩ | ⟨old, -, -, answered⟩
      · exact absent
      · simp [answered] at refused
      · simp [answered] at refused
    · intro absent
      exact answer_updating_of_absent (coherent.find?_eq_none_iff_id.mpr absent) block now
  case conflict =>
    intro owner
    constructor
    · intro refused
      rcases coherent.answer_updating_cases key block now with
        ⟨-, answered⟩ | ⟨old, held, known, other, heldToo, sameCode, differs, answered⟩ |
        ⟨old, -, -, answered⟩
      · simp [answered] at refused
      · have named : other.id = owner := by simpa [answered] using refused
        exact ⟨⟨old, held, known⟩, other, heldToo, sameCode, differs, named⟩
      · simp [answered] at refused
    · rintro ⟨⟨item, held, rfl⟩, other, heldToo, sameCode, differs, rfl⟩
      exact coherent.answer_updating_of_taken (coherent.find?_id held) heldToo sameCode differs now
  case overwritten =>
    rintro old held rfl own
    exact ⟨old.replace block now, table.written (old.replace block now),
      coherent.answer_updating_of_own (coherent.find?_id held) own now, rfl, rfl,
      coherent.puts_replace own now⟩

/-! ## Removing -/

theorem Coherent.answer_deleting_id (coherent : table.Coherent) {item : Item}
    (held : item ∈ table.items) :
    answer table (deleting item.id) = (.ok (), table.erase item.id) := by
  rw [answer_eq, deleting, delete_eq_erase (coherent.find?_id held)]
  rfl

theorem Coherent.removesOne (coherent : table.Coherent) (key : String) : RemovesOne table key := by
  constructor
  case notFound =>
    constructor
    · rintro refused item held rfl
      rw [coherent.answer_deleting_id held] at refused
      simp at refused
    · intro absent
      rw [answer_eq, deleting, delete_eq_notFound (coherent.find?_eq_none_iff_id.mpr absent)]
      rfl
  case removed =>
    rintro ⟨item, held, rfl⟩
    refine ⟨table.erase item.id, coherent.answer_deleting_id held, rfl, ?_, ?_⟩
    · rw [get, find?_erase_self]
    · intro other differs
      exact find?_erase_of_ne differs

end Table

/-! ## All operations -/

/-- On the table of a run, each operation answers as a store does in which every code stands
for one item, and leaves all other items as they were. -/
theorem Run.answers {requests : List Request} {history : History} (run : Run requests history)
    (block : Description) (now : Timestamp) :
    (∀ fresh, (Request.save fresh block now).Fresh history.table →
      SavesByCode history.table fresh block now) ∧
    (∀ key, OverwritesOwnCode history.table key block now) ∧
    ∀ key, RemovesOne history.table key := by
  refine ⟨?_, ?_, ?_⟩
  · intro fresh unused
    exact run.coherent.savesByCode now unused
  · intro key
    exact run.coherent.overwritesOwnCode key block now
  · intro key
    exact run.coherent.removesOne key

/-- The first item was given a code of its own, so the code that it had can be given away. -/
theorem Run.answers_saveTwoAndRename :
    ∃ item after,
      answer (saveTwoAndRename.foldl History.step .start).table
        (updating "q" (emptyBlock "a") secondHour) = (.ok item, after) ∧
      item.createdAt = firstHour ∧ after.get "q" = .ok item ∧ after.getCode "a" = .ok item := by
  obtain ⟨-, overwriting, -⟩ := Run.answers run_saveTwoAndRename (emptyBlock "a") secondHour
  obtain ⟨item, after, answered, sameId, made, puts⟩ :=
    (overwriting "q").overwritten (Item.make "q" (emptyBlock "b") firstHour) List.mem_cons_self rfl
      (by decide)
  have found := puts.get
  rw [sameId] at found
  exact ⟨item, after, answered, made, found, puts.getCode⟩

end BlockForge.Library
