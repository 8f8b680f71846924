/-
# Runs of a library

Clients of a library send requests that save, overwrite and remove items. They are carried
out one after the other, in whatever order they arrive: each one draws an identifier and a
time, is answered, and leaves a table for the next one. A request that fails leaves the table
as it was. A run is a sequence of requests from the empty table on in which every identifier
that is used for a new item is not in use.

What one request can do is said once. From it follows what every run keeps: items stand
under their own identifiers in the order of their last writing, no code stands twice, and
the members that an item repeats are those of its stored description.
-/

import BlockForge.Library.Store
import BlockForge.Proofs.Json.Members
import BlockForge.Proofs.Library.Table
import Mathlib.Data.List.Dedup

namespace BlockForge.Library

open BlockForge.Json

variable {α : Type}

/-- What a table in memory answers to a change, and the table that it leaves behind. -/
def answer (table : Table) (change : Change α) : Except Failure α × Table :=
  (memoryStore.change change).run.run table

/-- A change that fails leaves the table as it was. -/
theorem answer_eq (table : Table) (change : Change α) :
    answer table change = match change table with
      | .ok (result, after) => (.ok result, after)
      | .error failure => (.error failure, table) := by
  have unfolded : answer table change =
      ExceptT.run (match change table with
        | .ok (result, after) => (do set after; return result : InMemory α)
        | .error failure => throw failure) table := rfl
  rw [unfolded]
  cases change table <;> rfl

/-- A request that changes a library, with the identifier and the time that it draws. -/
inductive Request where
  | save (fresh : String) (block : Description) (now : Timestamp)
  | overwrite (key : String) (block : Description) (now : Timestamp)
  | remove (key : String)

/-- A table and the identifiers that were written, in order and with repetitions. -/
structure History where
  table : Table
  writes : List String

namespace Request

/-- What a request changes, and the identifier that it writes, if it writes one. -/
def change : Request → Change (Option String)
  | .save fresh block now => fun table =>
    (saving fresh block now table).map fun (receipt, after) => (some receipt.id, after)
  | .overwrite key block now => fun table =>
    (updating key block now table).map fun (item, after) => (some item.id, after)
  | .remove key => fun table => (deleting key table).map fun ((), after) => (none, after)

def reading? : Request → Option Timestamp
  | .save _ _ now => some now
  | .overwrite _ _ now => some now
  | .remove _ => none

/-- An identifier that is drawn for a new item is not in use. -/
def Fresh (table : Table) : Request → Prop
  | .save fresh block _ => (∀ item ∈ table.items, item.code ≠ block.code) → fresh ∉ table.keys
  | _ => True

end Request

namespace History

def start : History := ⟨.empty, []⟩

def step (history : History) (request : Request) : History :=
  match answer history.table request.change with
  | (.ok written, after) => ⟨after, history.writes ++ written.toList⟩
  | (.error _, after) => ⟨after, history.writes⟩

variable {history : History} {request : Request}

theorem step_of_ok {written : Option String} {after : Table}
    (answered : request.change history.table = .ok (written, after)) :
    history.step request = ⟨after, history.writes ++ written.toList⟩ := by
  rw [step, answer_eq, answered]

theorem step_of_error {failure : Failure}
    (refused : request.change history.table = .error failure) :
    history.step request = history := by
  rw [step, answer_eq, refused]

theorem step_save_of_ok {fresh : String} {block : Description} {now : Timestamp}
    {receipt : Receipt} {after : Table}
    (saved : history.table.upsert fresh block now = .ok (receipt, after)) :
    history.step (.save fresh block now) = ⟨after, history.writes ++ [receipt.id]⟩ := by
  have answered : (Request.save fresh block now).change history.table =
      .ok (some receipt.id, after) := by
    simp only [Request.change, saving, saved]
    rfl
  exact step_of_ok answered

theorem step_overwrite_of_ok {key : String} {block : Description} {now : Timestamp} {item : Item}
    {after : Table} (overwritten : history.table.update key block now = .ok (item, after)) :
    history.step (.overwrite key block now) = ⟨after, history.writes ++ [item.id]⟩ := by
  have answered : (Request.overwrite key block now).change history.table =
      .ok (some item.id, after) := by
    simp only [Request.change, updating, overwritten]
    rfl
  exact step_of_ok answered

theorem step_overwrite_of_error {key : String} {block : Description} {now : Timestamp}
    {failure : Failure} (refused : history.table.update key block now = .error failure) :
    history.step (.overwrite key block now) = history := by
  apply step_of_error
  simp only [Request.change, updating, refused]
  rfl

theorem step_remove_of_ok {key : String} {after : Table}
    (removed : history.table.delete key = .ok after) :
    history.step (.remove key) = ⟨after, history.writes⟩ := by
  have answered : (Request.remove key).change history.table = .ok (none, after) := by
    simp only [Request.change, deleting, removed]
    rfl
  rw [step_of_ok answered]
  simp

theorem step_remove_of_error {key : String} {failure : Failure}
    (refused : history.table.delete key = .error failure) :
    history.step (.remove key) = history := by
  apply step_of_error
  simp only [Request.change, deleting, refused]
  rfl

end History

/-- What is there after requests that were carried out one after the other. -/
inductive Run : List Request → History → Prop where
  | start : Run [] .start
  | next {requests : List Request} {history : History} (earlier : Run requests history)
      (request : Request) (fresh : request.Fresh history.table) :
      Run (requests ++ [request]) (history.step request)

/-! ## One request -/

/-- An item that a request writes into a table: no other item has its code, and it is new or
overwrites an item that was there. -/
structure Writes (table : Table) (request : Request) (item : Item) : Prop where
  own : ∀ other ∈ table.items, other.code = item.code → other.id = item.id
  origin : ∃ block now, request.reading? = some now ∧
    (item = Item.make item.id block now ∨ ∃ old ∈ table.items, item = old.replace block now)

namespace History

variable {history : History}

theorem step_save (coherent : history.table.Coherent) {fresh : String} {block : Description}
    {now : Timestamp} (unused : (Request.save fresh block now).Fresh history.table) :
    ∃ item, Writes history.table (.save fresh block now) item ∧
      history.step (.save fresh block now) =
        ⟨history.table.written item, history.writes ++ [item.id]⟩ := by
  by_cases known : ∃ old ∈ history.table.items, old.code = block.code
  · obtain ⟨old, held, sameCode⟩ := known
    refine ⟨old.replace block now, ⟨?_, block, now, rfl, .inr ⟨old, held, rfl⟩⟩,
      step_save_of_ok (coherent.upsert_eq_replace held sameCode fresh now)⟩
    intro other heldToo same
    rw [coherent.eq_of_code heldToo held (same.trans sameCode.symm)]
    rfl
  · have absent : ∀ item ∈ history.table.items, item.code ≠ block.code := by
      intro item held same
      exact known ⟨item, held, same⟩
    have made := Table.upsert_eq_make absent (Table.find?_eq_none_iff.mpr (unused absent)) now
    refine ⟨Item.make fresh block now, ⟨?_, block, now, rfl, .inl rfl⟩, step_save_of_ok made⟩
    intro other held same
    exact absurd same (absent other held)

theorem step_overwrite (coherent : history.table.Coherent) (key : String) (block : Description)
    (now : Timestamp) :
    history.step (.overwrite key block now) = history ∨
      ∃ item, Writes history.table (.overwrite key block now) item ∧
        history.step (.overwrite key block now) =
          ⟨history.table.written item, history.writes ++ [item.id]⟩ := by
  cases found : history.table.find? key with
  | none => exact .inl (step_overwrite_of_error (Table.update_eq_notFound found block now))
  | some old =>
      by_cases taken : ∃ owner ∈ history.table.items, owner.code = block.code ∧ owner.id ≠ key
      · obtain ⟨owner, held, sameCode, other⟩ := taken
        exact .inl (step_overwrite_of_error
          (coherent.update_eq_conflict found held sameCode other now))
      · right
        push Not at taken
        have held := Table.mem_items_of_find? found
        refine ⟨old.replace block now, ⟨?_, block, now, rfl, .inr ⟨old, held, rfl⟩⟩,
          step_overwrite_of_ok (coherent.update_eq_replace found taken now)⟩
        intro other heldToo same
        exact (taken other heldToo same).trans (coherent.id_of_find? found).symm

theorem step_remove (history : History) (key : String) :
    history.step (.remove key) = history ∨
      history.step (.remove key) = ⟨history.table.erase key, history.writes⟩ := by
  cases found : history.table.find? key with
  | none => exact .inl (step_remove_of_error (Table.delete_eq_notFound found))
  | some old => exact .inr (step_remove_of_ok (Table.delete_eq_erase found))

/-- A request changes nothing, writes one item, or takes one item out. -/
theorem step_cases (coherent : history.table.Coherent) {request : Request}
    (unused : request.Fresh history.table) :
    history.step request = history ∨
      (∃ item, Writes history.table request item ∧
        history.step request = ⟨history.table.written item, history.writes ++ [item.id]⟩) ∨
      ∃ key, history.step request = ⟨history.table.erase key, history.writes⟩ := by
  cases request with
  | save fresh block now => exact .inr (.inl (step_save coherent unused))
  | overwrite key block now =>
      rcases step_overwrite coherent key block now with same | wrote
      · exact .inl same
      · exact .inr (.inl wrote)
  | remove key =>
      rcases step_remove history key with same | erased
      · exact .inl same
      · exact .inr (.inr ⟨key, erased⟩)

end History

/-! ## Runs -/

/-- The table of a run is coherent. -/
theorem Run.coherent {requests : List Request} {history : History} (run : Run requests history) :
    history.table.Coherent := by
  induction run with
  | start => exact Table.coherent_empty
  | next earlier request unused ih =>
      rcases History.step_cases ih unused with same | ⟨item, writes, same⟩ | ⟨key, same⟩
      · rw [same]
        exact ih
      · rw [same]
        exact ih.written writes.own
      · rw [same]
        exact ih.erase key

/-! ### Order of writing -/

/-- What is written once more is last written at the end. -/
theorem dedup_append_singleton (writes : List String) (id : String) :
    (writes ++ [id]).dedup = writes.dedup.filter (· != id) ++ [id] := by
  induction writes with
  | nil => simp
  | cons first rest ih =>
      rw [List.cons_append]
      by_cases again : first ∈ rest
      · rw [List.dedup_cons_of_mem again, List.dedup_cons_of_mem (by simp [again]), ih]
      · rw [List.dedup_cons_of_notMem again]
        by_cases here : first = id
        · rw [here, List.dedup_cons_of_mem (by simp), ih]
          simp
        · rw [List.dedup_cons_of_notMem (by simp [again, here]), ih]
          simp [here]

/-- The entries of a run stand in the order in which they were last written. -/
theorem Run.keys_sublist {requests : List Request} {history : History}
    (run : Run requests history) : history.table.keys.Sublist history.writes.dedup := by
  induction run with
  | start => exact List.Sublist.slnil
  | next earlier request unused ih =>
      rcases History.step_cases earlier.coherent unused with same | ⟨item, -, same⟩ | ⟨key, same⟩
      · rw [same]
        exact ih
      · rw [same]
        show (Table.keys _).Sublist _
        -- A write takes the identifier out of both lists and puts it at the end of both.
        rw [Table.keys_written, dedup_append_singleton]
        exact (ih.filter _).append_right _
      · rw [same]
        show (Table.keys _).Sublist _
        rw [Table.keys_erase]
        exact List.filter_sublist.trans ih

/-! ### Repeated members -/

/-- The members of a description that an item repeats. -/
def Item.repeated (item : Item) : List (String × Value) :=
  [("blockName", .string item.blockName), ("code", .string item.code),
    ("tplFilename", .string item.template), ("nameLabel", .string item.displayName),
    ("description", .string item.about), ("tab", .string item.tab), ("icon", .string item.icon),
    ("hasRepeater", .bool item.hasRepeater)]

/-- What an item repeats is what its stored description says. -/
def Item.Mirrors (item : Item) : Prop :=
  ∀ member ∈ item.repeated, item.stored.get? member.1 = some member.2

/-- The members that an item repeats stand in the description as a value. -/
theorem get?_value_of_mem_repeated {id : String} {block : Description} {now : Timestamp}
    {member : String × Value} (mem : member ∈ (Item.make id block now).repeated) :
    block.value.get? member.1 = some member.2 ∧ member.2.canonical = member.2 := by
  obtain ⟨_, _, _, _, _, _, _, _, _, repeater⟩ := block
  simp only [Item.repeated, List.mem_cons, List.not_mem_nil, or_false] at mem
  rcases mem with rfl | rfl | rfl | rfl | rfl | rfl | rfl | rfl <;> cases repeater <;>
    exact ⟨rfl, rfl⟩

theorem Item.mirrors_make (id : String) (block : Description) (now : Timestamp) :
    (make id block now).Mirrors := by
  intro member mem
  obtain ⟨stands, kept⟩ := get?_value_of_mem_repeated mem
  show block.value.canonical.get? member.1 = some member.2
  rw [Description.value, Block.descriptionValue] at stands ⊢
  rw [get?_canonical, stands, Option.map_some, kept]

theorem Item.mirrors_replace (item : Item) (block : Description) (now : Timestamp) :
    (item.replace block now).Mirrors :=
  mirrors_make item.id block now

/-- An item of the table after a request was there before, or the request wrote it. -/
theorem History.mem_items_step {history : History} (coherent : history.table.Coherent)
    {request : Request} (unused : request.Fresh history.table) {item : Item}
    (held : item ∈ (history.step request).table.items) :
    item ∈ history.table.items ∨ Writes history.table request item := by
  rcases step_cases coherent unused with same | ⟨written, writes, same⟩ | ⟨key, same⟩
  · rw [same] at held
    exact .inl held
  · rw [same, Table.items_written] at held
    rcases List.mem_append.mp held with kept | last
    · exact .inl (Table.mem_items_erase kept)
    · rw [List.mem_singleton.mp last]
      exact .inr writes
  · rw [same] at held
    exact .inl (Table.mem_items_erase held)

/-- The items of a run repeat what their stored descriptions say. -/
theorem Run.mirrors {requests : List Request} {history : History} (run : Run requests history) :
    ∀ item ∈ history.table.items, item.Mirrors := by
  induction run with
  | start => simp [History.start, Table.empty, Table.items]
  | next earlier request unused ih =>
      intro item held
      rcases History.mem_items_step earlier.coherent unused held with kept | writes
      · exact ih item kept
      · obtain ⟨block, now, -, new | ⟨old, -, overwritten⟩⟩ := writes.origin
        · rw [new]
          exact Item.mirrors_make _ block now
        · rw [overwritten]
          exact old.mirrors_replace block now

/-! ### Times -/

theorem fieldsBefore_irrefl (fields : List Int) : Timestamp.fieldsBefore fields fields = false := by
  induction fields with
  | nil => rfl
  | cons first rest ih => simp [Timestamp.fieldsBefore, ih]

theorem isBefore_irrefl (t : Timestamp) : t.isBefore t = false :=
  fieldsBefore_irrefl t.fields

/-- Times that a clock shows which never goes back. -/
def Forward (times : List Timestamp) : Prop :=
  times.Pairwise fun earlier later => later.isBefore earlier = false

/-- While the clock does not go back, an item was made at a time that was drawn, and it was
not last written before that time. -/
theorem Run.times {requests : List Request} {history : History} (run : Run requests history)
    (forward : Forward (requests.filterMap Request.reading?)) :
    ∀ item ∈ history.table.items, item.createdAt ∈ requests.filterMap Request.reading? ∧
      item.updatedAt.isBefore item.createdAt = false := by
  induction run with
  | start => simp [History.start, Table.empty, Table.items]
  | @next requests history earlier request unused ih =>
      intro item held
      rw [List.filterMap_append] at forward ⊢
      obtain ⟨forwardBefore, -, across⟩ := List.pairwise_append.mp forward
      rcases History.mem_items_step earlier.coherent unused held with kept | writes
      · obtain ⟨drawn, inOrder⟩ := ih forwardBefore item kept
        exact ⟨List.mem_append_left _ drawn, inOrder⟩
      · obtain ⟨block, now, reading, new | ⟨old, heldOld, overwritten⟩⟩ := writes.origin
        · rw [new]
          have drawn : now ∈ [request].filterMap Request.reading? := by simp [reading]
          exact ⟨List.mem_append_right _ drawn, isBefore_irrefl now⟩
        · rw [overwritten]
          have drawn : now ∈ [request].filterMap Request.reading? := by simp [reading]
          -- The time of making is kept, and it was drawn before the time of this write.
          obtain ⟨drawnOld, -⟩ := ih forwardBefore old heldOld
          exact ⟨List.mem_append_left _ drawnOld, across _ drawnOld _ drawn⟩

/-! ## What every run keeps -/

/-- Whatever requests were carried out, and in whatever order: items stand under their own
identifiers, no code stands twice, items repeat what their stored descriptions say, and they
stand in the order in which they were last written. If the clock never went back, no item
was last written before it was made. -/
theorem Run.well_kept {requests : List Request} {history : History} (run : Run requests history) :
    (∀ entry ∈ history.table.entries, entry.1 = entry.2.id) ∧
    (history.table.items.map (·.code)).Nodup ∧
    (∀ item ∈ history.table.items, item.Mirrors) ∧
    history.table.keys.Sublist history.writes.dedup ∧
    (Forward (requests.filterMap Request.reading?) →
      ∀ item ∈ history.table.items, item.updatedAt.isBefore item.createdAt = false) := by
  refine ⟨run.coherent.keyed, run.coherent.codesDistinct, run.mirrors, run.keys_sublist, ?_⟩
  intro forward item held
  exact (run.times forward item held).2

def emptyBlock (code : String) : Description :=
  ⟨"Memo", "memo.tpl", code, "Memo", "", "general", "DocumentIcon", false, [], none⟩

theorem exists_midnight : 0 < 24 ∧ 0 < 60 ∧ 0 < 60 ∧
    (0 < nanosPerSecond ∨ (0 = 59 ∧ 0 < 2 * nanosPerSecond)) := by
  decide

def firstHour : Timestamp := ⟨.origin, 0, 0, 0, 0, exists_midnight⟩

def secondHour : Timestamp := ⟨.origin, 1, 0, 0, 0, by decide⟩

/-- Two items are saved, and the first one is then given a new code. -/
def saveTwoAndRename : List Request :=
  [.save "p" (emptyBlock "a") firstHour, .save "q" (emptyBlock "b") firstHour,
    .overwrite "p" (emptyBlock "c") secondHour]

theorem run_saveTwoAndRename :
    Run saveTwoAndRename (saveTwoAndRename.foldl History.step .start) := by
  have savedOne := Run.next .start (.save "p" (emptyBlock "a") firstHour) fun _ => by decide
  have savedTwo := savedOne.next (.save "q" (emptyBlock "b") firstHour) fun _ => by decide
  exact savedTwo.next (.overwrite "p" (emptyBlock "c") secondHour) trivial

theorem Run.well_kept_saveTwoAndRename :
    (saveTwoAndRename.foldl History.step .start).table.keys = ["q", "p"] ∧
    (saveTwoAndRename.foldl History.step .start).table.keys.Sublist
      (saveTwoAndRename.foldl History.step .start).writes.dedup ∧
    ∀ item ∈ (saveTwoAndRename.foldl History.step .start).table.items,
      item.Mirrors ∧ item.updatedAt.isBefore item.createdAt = false := by
  obtain ⟨-, -, mirrors, inOrder, times⟩ := Run.well_kept run_saveTwoAndRename
  have forward : Forward (saveTwoAndRename.filterMap Request.reading?) := by
    rw [Forward]
    decide
  exact ⟨by decide, inOrder, fun item held => ⟨mirrors item held, times forward item held⟩⟩

end BlockForge.Library
