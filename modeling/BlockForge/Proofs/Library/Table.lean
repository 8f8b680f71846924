/-
# What the operations on a table do

A table is coherent if every item stands under its own identifier and no identifier and no
code stands twice. On such a table an operation has a simple account: it fails and says why,
or it takes one item out, or it puts one item at the end and takes out what stood under its
identifier. All other entries stay as they are and in their order.

The accounts are equations, one for each way in which an operation can end. Everything else
that is said of operations is derived from them.
-/

import BlockForge.Library.Table
import Mathlib.Data.List.Nodup

namespace BlockForge.Library

namespace Table

def keys (table : Table) : List String := table.entries.map (·.1)

def written (table : Table) (item : Item) : Table :=
  ⟨(table.erase item.id).entries ++ [(item.id, item)]⟩

/-- Every item stands under its own identifier, and no identifier and no code stands twice. -/
structure Coherent (table : Table) : Prop where
  keyed : ∀ entry ∈ table.entries, entry.1 = entry.2.id
  keysDistinct : table.keys.Nodup
  codesDistinct : (table.items.map (·.code)).Nodup

theorem coherent_empty : Coherent .empty where
  keyed := by simp [empty]
  keysDistinct := List.nodup_nil
  codesDistinct := List.nodup_nil

variable {table : Table}

/-! ## Looking up -/

theorem find?_eq_none_iff {key : String} : table.find? key = none ↔ key ∉ table.keys := by
  rw [find?, keys, List.lookup_eq_none_iff, List.mem_map]
  constructor
  · rintro absent ⟨entry, mem, rfl⟩
    exact absurd (absent entry mem) (by simp)
  · intro absent entry mem
    rw [bne_iff_ne]
    rintro rfl
    exact absent ⟨entry, mem, rfl⟩

/-- What is done to every item does not change which one is found. -/
theorem find?_mapItems (f : Item → Item) (table : Table) (key : String) :
    find? ⟨table.entries.map fun entry => (entry.1, f entry.2)⟩ key = (table.find? key).map f := by
  obtain ⟨entries⟩ := table
  simp only [find?]
  induction entries with
  | nil => rfl
  | cons entry rest ih =>
      rw [List.map_cons, List.lookup_cons, List.lookup_cons, ih]
      cases key == entry.1 <;> rfl

theorem mem_entries_of_find? {key : String} {item : Item} (found : table.find? key = some item) :
    (key, item) ∈ table.entries := by
  rw [find?, List.lookup_eq_some_iff] at found
  obtain ⟨front, back, entries, -⟩ := found
  rw [entries]
  exact List.mem_append_right front List.mem_cons_self

theorem mem_items_of_find? {key : String} {item : Item} (found : table.find? key = some item) :
    item ∈ table.items :=
  List.mem_map_of_mem (mem_entries_of_find? found)

theorem find?_of_mem_entries (distinct : table.keys.Nodup) {key : String} {item : Item}
    (mem : (key, item) ∈ table.entries) : table.find? key = some item := by
  obtain ⟨front, back, entries⟩ := List.append_of_mem mem
  rw [find?, List.lookup_eq_some_iff]
  refine ⟨front, back, entries, fun entry earlier => ?_⟩
  rw [keys, entries, List.map_append, List.nodup_append] at distinct
  rw [bne_iff_ne]
  exact (distinct.2.2 entry.1 (List.mem_map_of_mem earlier) key (by simp)).symm

namespace Coherent

variable (coherent : table.Coherent)

include coherent

/-- An item is found under its identifier. -/
theorem find?_id {item : Item} (held : item ∈ table.items) : table.find? item.id = some item := by
  obtain ⟨entry, mem, rfl⟩ := List.mem_map.mp held
  apply find?_of_mem_entries coherent.keysDistinct
  rw [← coherent.keyed entry mem]
  exact mem

/-- What is found under a key has that key for its identifier. -/
theorem id_of_find? {key : String} {item : Item} (found : table.find? key = some item) :
    item.id = key :=
  (coherent.keyed _ (mem_entries_of_find? found)).symm

/-- Two items of one code are one item. -/
theorem eq_of_code {first second : Item} (held : first ∈ table.items)
    (heldToo : second ∈ table.items) (same : first.code = second.code) : first = second :=
  List.inj_on_of_nodup_map coherent.codesDistinct held heldToo same

/-- The item of a code is the one that is found for it. -/
theorem findCode?_eq_some {item : Item} (held : item ∈ table.items) :
    table.findCode? item.code = some item := by
  cases found : table.findCode? item.code with
  | none =>
      rw [findCode?, List.find?_eq_none] at found
      exact absurd (found item held) (by simp)
  | some other =>
      rw [findCode?] at found
      have same : other.code = item.code := by simpa using List.find?_some found
      rw [coherent.eq_of_code (List.mem_of_find?_eq_some found) held same]

end Coherent

theorem findCode?_eq_none_iff {code : String} :
    table.findCode? code = none ↔ ∀ item ∈ table.items, item.code ≠ code := by
  rw [findCode?, List.find?_eq_none]
  simp only [beq_iff_eq]

theorem code_of_findCode? {code : String} {item : Item} (found : table.findCode? code = some item) :
    item ∈ table.items ∧ item.code = code := by
  rw [findCode?] at found
  exact ⟨List.mem_of_find?_eq_some found, by simpa using List.find?_some found⟩

/-! ## Taking out and writing -/

theorem keys_erase (key : String) : (table.erase key).keys = table.keys.filter (· != key) := by
  rw [keys, keys, erase, List.filter_map]
  rfl

theorem notMem_keys_erase (key : String) : key ∉ (table.erase key).keys := by
  rw [keys_erase, List.mem_filter]
  simp

theorem mem_items_erase {key : String} {item : Item} (held : item ∈ (table.erase key).items) :
    item ∈ table.items := by
  obtain ⟨entry, mem, rfl⟩ := List.mem_map.mp held
  exact List.mem_map_of_mem (List.mem_of_mem_filter mem)

theorem Coherent.erase (coherent : table.Coherent) (key : String) : (table.erase key).Coherent where
  keyed entry mem := coherent.keyed entry (List.mem_of_mem_filter mem)
  keysDistinct := coherent.keysDistinct.sublist (List.filter_sublist.map _)
  codesDistinct := coherent.codesDistinct.sublist ((List.filter_sublist.map _).map _)

theorem keys_written (item : Item) :
    (table.written item).keys = table.keys.filter (· != item.id) ++ [item.id] := by
  rw [written, keys, List.map_append, ← keys, keys_erase]
  rfl

theorem items_written (item : Item) :
    (table.written item).items = (table.erase item.id).items ++ [item] := by
  rw [written, items, List.map_append]
  rfl

/-- A table stays coherent if no other item has the code of the item that is written. -/
theorem Coherent.written (coherent : table.Coherent) {item : Item}
    (own : ∀ other ∈ table.items, other.code = item.code → other.id = item.id) :
    (table.written item).Coherent where
  keyed entry mem := by
    rcases List.mem_append.mp mem with kept | last
    · exact (coherent.erase item.id).keyed entry kept
    · rw [List.mem_singleton.mp last]
  keysDistinct := by
    rw [keys_written, List.nodup_append, ← keys_erase]
    refine ⟨(coherent.erase item.id).keysDistinct, List.nodup_singleton _, ?_⟩
    intro key kept last isLast same
    rw [same, List.mem_singleton.mp isLast] at kept
    exact notMem_keys_erase item.id kept
  codesDistinct := by
    rw [items_written, List.map_append, List.nodup_append]
    refine ⟨(coherent.erase item.id).codesDistinct, List.nodup_singleton _, ?_⟩
    intro code kept last isLast same
    obtain ⟨entry, mem, rfl⟩ := List.mem_map.mp kept
    obtain ⟨other, inTable, rfl⟩ := List.mem_map.mp mem
    rw [List.map_singleton, List.mem_singleton] at isLast
    have sameId := own other.2 (mem_items_erase mem) (same.trans isLast)
    have sameKey := (coherent.erase item.id).keyed other inTable
    exact notMem_keys_erase item.id (List.mem_map.mpr ⟨other, inTable, sameKey.trans sameId⟩)

theorem find?_erase_self (key : String) : (table.erase key).find? key = none :=
  find?_eq_none_iff.mpr (notMem_keys_erase key)

/-- What stands under another key is still there. -/
theorem find?_erase_of_ne {erased key : String} (other : key ≠ erased) :
    (table.erase erased).find? key = table.find? key := by
  obtain ⟨entries⟩ := table
  simp only [find?, erase]
  induction entries with
  | nil => rfl
  | cons entry rest ih =>
      rw [List.filter_cons, List.lookup_cons]
      by_cases here : entry.1 = erased
      · have differs : (key == entry.1) = false := by
          rw [beq_eq_false_iff_ne, here]
          exact other
        rw [if_neg (by simp [here]), ih, differs]
      · rw [if_pos (by simp [here]), List.lookup_cons, ih]

theorem find?_written_self (item : Item) : (table.written item).find? item.id = some item := by
  have absent : (table.erase item.id).find? item.id = none := find?_erase_self item.id
  rw [find?] at absent
  rw [find?, written, List.lookup_append, absent]
  simp

/-- What stands under another key is not touched by a write. -/
theorem find?_written_of_ne {item : Item} {key : String} (other : key ≠ item.id) :
    (table.written item).find? key = table.find? key := by
  have differs : (key == item.id) = false := beq_eq_false_iff_ne.mpr other
  have kept : (table.erase item.id).find? key = table.find? key := find?_erase_of_ne other
  rw [find?] at kept
  rw [find?, written, List.lookup_append, List.lookup_cons, differs, kept]
  simp

/-- Writing an item takes out what stood under its identifier and puts the item at the end. -/
theorem insert_erase (item : Item) : (table.erase item.id).insert item.id item = table.written item := by
  rw [insert, find?_erase_self]
  rfl

/-- A new item is put at the end. -/
theorem insert_of_find?_eq_none {item : Item} (absent : table.find? item.id = none) :
    table.insert item.id item = table.written item := by
  have untouched : (table.erase item.id).entries = table.entries := by
    rw [erase, List.filter_eq_self]
    intro entry mem
    rw [bne_iff_ne]
    rintro same
    exact find?_eq_none_iff.mp absent (List.mem_map.mpr ⟨entry, mem, same⟩)
  rw [insert, absent, written, untouched]
  rfl

/-! ## Accounts of the operations -/

theorem take_eq {key : String} {item : Item} (found : table.find? key = some item) :
    table.take key = .ok (item, table.erase key) := by
  rw [take, found]

theorem take_eq_error {key : String} (absent : table.find? key = none) :
    table.take key = .error (.notFound key) := by
  rw [take, absent]

/-- A description of a code that is there overwrites the item of that code. -/
theorem Coherent.upsert_eq_replace (coherent : table.Coherent) {old : Item}
    (held : old ∈ table.items) {block : Description} (sameCode : old.code = block.code)
    (fresh : String) (now : Timestamp) :
    table.upsert fresh block now =
      .ok ((old.replace block now).receipt true, table.written (old.replace block now)) := by
  have found := coherent.findCode?_eq_some held
  rw [sameCode] at found
  rw [upsert, found]
  dsimp only
  rw [take_eq (coherent.find?_id held)]
  exact congrArg (fun after => Except.ok (_, after)) (insert_erase (old.replace block now))

/-- A description of a new code becomes a new item. -/
theorem upsert_eq_make {fresh : String} {block : Description}
    (absentCode : ∀ item ∈ table.items, item.code ≠ block.code)
    (absent : table.find? fresh = none) (now : Timestamp) :
    table.upsert fresh block now =
      .ok ((Item.make fresh block now).receipt false,
        table.written (Item.make fresh block now)) := by
  rw [upsert, findCode?_eq_none_iff.mpr absentCode]
  exact congrArg (fun after => Except.ok (_, after)) (insert_of_find?_eq_none absent)

theorem update_eq_notFound {key : String} (absent : table.find? key = none) (block : Description)
    (now : Timestamp) : table.update key block now = .error (.notFound key) := by
  rw [update, absent]
  rfl

/-- A code that another item has is not given away. -/
theorem Coherent.update_eq_conflict (coherent : table.Coherent) {key : String} {old owner : Item}
    (found : table.find? key = some old) (held : owner ∈ table.items) {block : Description}
    (sameCode : owner.code = block.code) (other : owner.id ≠ key) (now : Timestamp) :
    table.update key block now = .error (.conflict block.code owner.id) := by
  have foundCode := coherent.findCode?_eq_some held
  rw [sameCode] at foundCode
  rw [update, found, foundCode]
  simp [Option.filter, other]
  rfl

/-- Otherwise the item is overwritten. -/
theorem Coherent.update_eq_replace (coherent : table.Coherent) {key : String} {old : Item}
    (found : table.find? key = some old) {block : Description}
    (own : ∀ other ∈ table.items, other.code = block.code → other.id = key) (now : Timestamp) :
    table.update key block now =
      .ok (old.replace block now, table.written (old.replace block now)) := by
  have noOwner : (table.findCode? block.code).filter (·.id != key) = none := by
    rw [Option.filter_eq_none_iff]
    intro owner foundCode
    obtain ⟨held, sameCode⟩ := code_of_findCode? foundCode
    simp [own owner held sameCode]
  have after : (table.erase key).insert (old.replace block now).id (old.replace block now) =
      table.written (old.replace block now) := by
    rw [← coherent.id_of_find? found]
    exact insert_erase (old.replace block now)
  rw [update, found, noOwner, take_eq found, ← after]
  rfl

theorem delete_eq_notFound {key : String} (absent : table.find? key = none) :
    table.delete key = .error (.notFound key) := by
  rw [delete, take_eq_error absent]
  rfl

theorem delete_eq_erase {key : String} {old : Item} (found : table.find? key = some old) :
    table.delete key = .ok (table.erase key) := by
  rw [delete, take_eq found]
  rfl

end Table

end BlockForge.Library
