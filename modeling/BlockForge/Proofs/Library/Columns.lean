/-
# What does not depend on stored descriptions

Where a table is written and read, the stored descriptions of its items may change by their numbers.
No other column of an item does, and no change of a table looks at stored descriptions: items are
looked up by their identifiers and codes, and what is written comes from the description of the call.
So a table that is written and read after every change differs from one that is kept as it is in
stored descriptions only, and its lists are the same.
-/

import BlockForge.Proofs.Library.Agreement

namespace BlockForge.Library

/-! ## Tables without stored descriptions -/

/-- An item without its stored description. -/
def Item.bare (item : Item) : Item := { item with stored := .null }

namespace Table

/-- The table with its items without their stored descriptions. -/
def bare (table : Table) : Table := ⟨table.entries.map fun entry => (entry.1, entry.2.bare)⟩

theorem items_bare (table : Table) : table.bare.items = table.items.map Item.bare := by
  rw [items, items, bare, List.map_map, List.map_map]
  rfl

theorem bare_bare (table : Table) : table.bare.bare = table.bare := by
  rw [bare, bare, List.map_map]
  rfl

theorem bare_reread (table : Table) : table.reread.bare = table.bare := by
  rw [bare, reread, List.map_map]
  rfl

/-- Lists do not tell tables apart that differ in stored descriptions only. -/
theorem list_eq_of_bare {first second : Table} (same : first.bare = second.bare) :
    first.list = second.list := by
  have shown (table : Table) : table.bare.list = table.list := by
    rw [list, list, items_bare, ← List.map_reverse, List.map_map]
    rfl
  rw [← shown first, same, shown second]

theorem find?_bare (table : Table) (key : String) :
    table.bare.find? key = (table.find? key).map Item.bare :=
  find?_mapItems Item.bare table key

theorem findCode?_bare (table : Table) (code : String) :
    table.bare.findCode? code = (table.findCode? code).map Item.bare := by
  rw [findCode?, findCode?, items_bare, List.find?_map]
  rfl

theorem erase_bare (table : Table) (key : String) :
    table.bare.erase key = (table.erase key).bare := by
  rw [erase, erase, bare, bare, List.filter_map]
  rfl

theorem insert_bare (table : Table) (key : String) (item : Item) :
    table.bare.insert key item.bare = (table.insert key item).bare := by
  rw [insert, insert, find?_bare, Option.isSome_map]
  split
  · rw [bare, bare, List.map_map, List.map_map]
    congr 2
    funext entry
    simp only [Function.comp_apply]
    split <;> rfl
  · rw [bare, bare, List.map_append]
    rfl

theorem bare_insert_bare (table : Table) (key : String) (item : Item) :
    (table.bare.insert key item).bare = (table.insert key item).bare := by
  rw [← insert_bare, ← insert_bare, bare_bare]

theorem take_bare (table : Table) (key : String) :
    table.bare.take key =
      (table.take key).map fun (item, rest) => (item.bare, rest.bare) := by
  rw [take, take, find?_bare]
  cases table.find? key with
  | none => rfl
  | some item =>
      rw [Option.map_some, erase_bare]
      rfl

end Table

/-! ## Changes -/

/-- What a change makes of a table does not depend on stored descriptions, but for these. -/
def Blind {α : Type} (change : Change α) : Prop :=
  ∀ table : Table, (change table.bare).map (·.2.bare) = (change table).map (·.2.bare)

theorem blind_saving (fresh : String) (block : Description) (now : Timestamp) :
    Blind (saving fresh block now) := by
  intro table
  show (table.bare.upsert fresh block now).map _ = (table.upsert fresh block now).map _
  rw [Table.upsert, Table.upsert, Table.findCode?_bare]
  cases table.findCode? block.code with
  | none => exact congrArg Except.ok (table.bare_insert_bare fresh _)
  | some owner =>
      show (table.bare.take owner.id >>= _).map _ = (table.take owner.id >>= _).map _
      rw [Table.take_bare]
      cases table.take owner.id with
      | error failure => rfl
      | ok taken => exact congrArg Except.ok (taken.2.bare_insert_bare _ _)

theorem blind_updating (key : String) (block : Description) (now : Timestamp) :
    Blind (updating key block now) := by
  intro table
  show (table.bare.update key block now).map _ = (table.update key block now).map _
  have owner : (table.bare.findCode? block.code).filter (·.id != key) =
      ((table.findCode? block.code).filter (·.id != key)).map Item.bare := by
    rw [Table.findCode?_bare, Option.filter_map]
    rfl
  rw [Table.update, Table.update, Table.find?_bare, Option.isNone_map, owner]
  cases (table.find? key).isNone with
  | true => rfl
  | false =>
      cases (table.findCode? block.code).filter (·.id != key) with
      | some owner => rfl
      | none =>
          show (table.bare.take key >>= _).map _ = (table.take key >>= _).map _
          rw [Table.take_bare]
          cases table.take key with
          | error failure => rfl
          | ok taken => exact congrArg Except.ok (taken.2.bare_insert_bare _ _)

theorem blind_deleting (key : String) : Blind (deleting key) := by
  intro table
  show ((table.bare.delete key).map _).map _ = ((table.delete key).map _).map _
  rw [Table.delete, Table.delete, Table.take_bare]
  cases table.take key with
  | error failure => rfl
  | ok taken => exact congrArg Except.ok taken.2.bare_bare

theorem Blind.map {α : Type} {change : Change α} (blind : Blind change) (tell : α → Reply) :
    Blind fun table => (change table).map fun (result, after) => (tell result, after) := by
  intro table
  have same := blind table
  show ((change table.bare).map _).map _ = ((change table).map _).map _
  cases done : change table.bare <;> cases doneToo : change table <;> rw [done, doneToo] at same
  case error.error => exact same
  case ok.ok => exact same
  all_goals cases same

/-! ## Calls -/

/-- Two tables that differ in stored descriptions only still do after a change, also if one of them
is written and read. -/
theorem Blind.perform {change : Change Reply} (blind : Blind change) {first second : Table}
    (same : first.bare = second.bare) :
    ((Operation.alter change).perform .reread first).2.bare =
      ((Operation.alter change).perform id second).2.bare := by
  have agree : (change first).map (·.2.bare) = (change second).map (·.2.bare) := by
    rw [← blind first, same, blind second]
  rw [Operation.perform, Operation.perform]
  cases done : change first <;> cases doneToo : change second <;> rw [done, doneToo] at agree
  case error.error => exact same
  case ok.ok => exact (Table.bare_reread _).trans (Except.ok.inj agree)
  all_goals cases agree

theorem bare_perform (call : Call) {first second : Table} (same : first.bare = second.bare) :
    (call.operation.perform .reread first).2.bare = (call.operation.perform id second).2.bare := by
  cases call with
  | save fresh block now => exact ((blind_saving fresh block now).map _).perform same
  | overwrite key block now => exact ((blind_updating key block now).map _).perform same
  | remove key => exact ((blind_deleting key).map fun _ => .removed).perform same
  | get | getCode | list | description => exact same

/-- A table that is written and read after every change differs from one that is not in stored
descriptions only. -/
theorem bare_replay (calls : List Call) {first second : Table} (same : first.bare = second.bare) :
    (replay .reread calls first).2.bare = (replay id calls second).2.bare := by
  induction calls generalizing first second with
  | nil => exact same
  | cons call rest ih => exact ih (bare_perform call same)

end BlockForge.Library
