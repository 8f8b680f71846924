/-
# Libraries that were not written here

A document of a library may come from elsewhere. Its keys are distinct once it is read, but an
item may stand under a key that is not its identifier, and several items may have one code. Saving
looks for the first item of the code and takes out what stands under the identifier of that item,
so it depends on these two things only.

Saving fails exactly if that identifier is no key. Otherwise it tells of an item that is there and
holds the description, and it touches no key but the identifiers of the two items. It does what it
is meant to do if the items of the code stand under their own identifiers and are not more than
one, and where one of the two is known, the other one is needed.
-/

import BlockForge.Proofs.Library.Agreement

namespace BlockForge.Library

open BlockForge.Json

/-- The description of a new item can be written and read. -/
theorem Item.storable_make (id : String) {block : Description} (fits : block.Fits)
    (now : Timestamp) : (make id block now).Storable :=
  fits.sized.rearranged rearranging_canonical

namespace Table

variable {table changed : Table} {block : Description} {fresh : String} {now : Timestamp}
variable {receipt : Receipt}

/-! ## Keys of a table that is read -/

theorem keys_insert (key : String) (item : Item) : (table.insert key item).keys =
    if key ∈ table.keys then table.keys else table.keys ++ [key] := by
  by_cases there : key ∈ table.keys
  · have found : (table.find? key).isSome := by
      rw [Option.isSome_iff_ne_none, ne_eq, find?_eq_none_iff, not_not]
      exact there
    rw [insert, if_pos found, if_pos there, keys, keys, List.map_map]
    refine List.map_congr_left fun entry _ => ?_
    by_cases here : entry.1 = key <;> simp [here]
  · have absent : ¬ (table.find? key).isSome := by
      rw [find?_eq_none_iff.mpr there]
      simp
    rw [insert, if_neg absent, if_neg there, keys, List.map_append]
    rfl

theorem keys_insert_nodup (distinct : table.keys.Nodup) (key : String) (item : Item) :
    (table.insert key item).keys.Nodup := by
  rw [keys_insert]
  split
  · exact distinct
  · rename_i absent
    rw [List.nodup_append]
    refine ⟨distinct, List.nodup_singleton key, fun other there last isLast => ?_⟩
    rw [List.mem_singleton.mp isLast]
    rintro rfl
    exact absent there

theorem keys_readItems_nodup {members : List (String × Value)} (distinct : table.keys.Nodup)
    (read : readItems table members = .ok changed) : changed.keys.Nodup := by
  induction members generalizing table with
  | nil =>
      obtain rfl := Except.ok.inj read
      exact distinct
  | cons member rest ih =>
      obtain ⟨item, -, others⟩ := bind_eq_ok read
      exact ih (keys_insert_nodup distinct _ _) others

theorem keys_readTable_nodup {held : List (String × Value)} (read : readTable held = .ok table) :
    table.keys.Nodup := by
  rw [readTable] at read
  split at read
  · cases read
  · split at read
    · obtain ⟨found, items, rest⟩ := bind_eq_ok read
      have distinct := keys_readItems_nodup coherent_empty.keysDistinct items
      split at rest
      · rw [← Except.ok.inj rest]
        exact distinct
      · cases rest
    · cases read

/-- The keys of a table that is read are distinct, whatever the document. -/
theorem keys_nodup_of_loads {text : String} (loads : tableOfText text = .ok table) :
    table.keys.Nodup := by
  rw [tableOfText] at loads
  split at loads
  · rename_i read
    obtain rfl := Except.ok.inj loads
    obtain ⟨found, fromRoot, ends⟩ := bind_eq_ok read
    split at ends
    · cases ends
    obtain rfl := Except.ok.inj ends
    rw [readDocument] at fromRoot
    cases root : (Document.ofText text.toList).root with
    | object start members =>
        rw [root] at fromRoot
        obtain ⟨inner, -, walk⟩ := bind_eq_ok fromRoot
        obtain ⟨⟨draft, stop⟩, -, drafted⟩ := bind_eq_ok walk
        obtain ⟨version, -, whole⟩ := bind_eq_ok drafted
        cases tried : readTable draft.held.reverse with
        | error fault =>
            rw [tried] at whole
            cases whole
        | ok read =>
            rw [tried] at whole
            obtain rfl := Except.ok.inj whole
            exact keys_readTable_nodup tried
    | _ =>
        rw [root] at fromRoot
        cases fromRoot
  · cases loads

/-! ## What a save does to any table -/

/-- Saving fails exactly if the first item of the code has an identifier that is no key. -/
theorem upsert_eq_error_iff {failure : Failure} : table.upsert fresh block now = .error failure ↔
    ∃ owner, table.findCode? block.code = some owner ∧ owner.id ∉ table.keys ∧
      failure = .notFound owner.id := by
  cases found : table.findCode? block.code with
  | none =>
      rw [upsert, found]
      simp [pure, Except.pure]
  | some owner =>
      rw [upsert, found]
      dsimp only
      cases there : table.find? owner.id with
      | none =>
          rw [take_eq_error there]
          have absent := find?_eq_none_iff.mp there
          simp only [bind, Except.bind, Except.error.injEq, Option.some.injEq, exists_eq_left']
          exact ⟨fun same => ⟨absent, same.symm⟩, fun same => same.2.symm⟩
      | some held =>
          rw [take_eq there]
          have present : owner.id ∈ table.keys := by
            by_contra absent
            rw [find?_eq_none_iff.mpr absent] at there
            cases there
          simp [bind, Except.bind, pure, Except.pure, present]

/-- How a save succeeded: it made an item, or it overwrote the one under the identifier of the
first item of the code. -/
theorem upsert_cases (done : table.upsert fresh block now = .ok (receipt, changed)) :
    (table.findCode? block.code = none ∧ receipt = (Item.make fresh block now).receipt false ∧
      changed = table.insert fresh (Item.make fresh block now)) ∨
    ∃ owner old, table.findCode? block.code = some owner ∧ table.find? owner.id = some old ∧
      receipt = (old.replace block now).receipt true ∧
      changed = (table.erase owner.id).insert old.id (old.replace block now) := by
  rw [upsert] at done
  split at done
  · rename_i owner found
    obtain ⟨⟨old, rest⟩, taken, written⟩ := bind_eq_ok done
    rw [take] at taken
    split at taken
    · rename_i held there
      obtain ⟨rfl, rfl⟩ := Prod.mk.inj (Except.ok.inj taken)
      obtain ⟨told, put⟩ := Prod.mk.inj (Except.ok.inj written)
      exact .inr ⟨owner, held, found, there, told.symm, put.symm⟩
    · cases taken
  · rename_i absent
    obtain ⟨told, put⟩ := Prod.mk.inj (Except.ok.inj done)
    exact .inl ⟨absent, told.symm, put.symm⟩

/-- What is found after a save: the item it tells of, with the description, and under every other
key but the identifier of the first item of the code what was there. -/
structure Found (table changed : Table) (block : Description) (receipt : Receipt) : Prop where
  told : ∃ item, changed.find? receipt.id = some item ∧ item.id = receipt.id ∧
    item.code = block.code ∧ item.stored = block.value.canonical
  others : ∀ key ≠ receipt.id,
    (∀ owner, table.findCode? block.code = some owner → key ≠ owner.id) →
    changed.find? key = table.find? key

theorem found_of_upsert (done : table.upsert fresh block now = .ok (receipt, changed)) :
    Found table changed block receipt := by
  rcases upsert_cases done with ⟨-, rfl, rfl⟩ | ⟨owner, old, first, -, rfl, rfl⟩
  · refine ⟨⟨Item.make fresh block now, ?_, rfl, rfl, rfl⟩, fun key other _ => ?_⟩
    · exact (find?_insert _ _ _).trans (if_pos rfl)
    · exact (find?_insert _ _ _).trans (if_neg other)
  · refine ⟨⟨old.replace block now, ?_, rfl, rfl, rfl⟩, fun key other notOwner => ?_⟩
    · exact (find?_insert _ _ _).trans (if_pos rfl)
    · exact ((find?_insert _ _ _).trans (if_neg other)).trans
        (find?_erase_of_ne (notOwner owner first))

/-! ## When a save is safe -/

/-- The items of a code stand under their own identifiers. -/
def OwnKeys (table : Table) (code : String) : Prop :=
  ∀ key item, table.find? key = some item → item.code = code → item.id = key

/-- At most one item has a code. -/
def Once (table : Table) (code : String) : Prop :=
  ∀ key item other held, table.find? key = some item → table.find? other = some held →
    item.code = code → held.code = code → key = other

/-- A save that is safe: it succeeds, the item of the code is then the one that it tells of and
holds the description, and items of other codes are as they were. -/
def SavesSafely (table : Table) (fresh : String) (block : Description) (now : Timestamp) : Prop :=
  ∃ receipt changed, table.upsert fresh block now = .ok (receipt, changed) ∧
    (∃ item, changed.getCode block.code = .ok item ∧ item.id = receipt.id ∧
      item.stored = block.value.canonical) ∧
    ∀ key item, table.find? key = some item → item.code ≠ block.code →
      changed.find? key = some item

theorem exists_find?_of_findCode? (distinct : table.keys.Nodup) {code : String} {item : Item}
    (found : table.findCode? code = some item) :
    ∃ key, table.find? key = some item ∧ item.code = code := by
  obtain ⟨held, sameCode⟩ := code_of_findCode? found
  obtain ⟨entry, mem, rfl⟩ := List.mem_map.mp held
  exact ⟨entry.1, find?_of_mem_entries distinct mem, sameCode⟩

/-- An item that is written is the one that is found for its code if no other one has it. -/
theorem findCode?_written {item : Item}
    (alone : ∀ other ∈ (table.erase item.id).items, other.code ≠ item.code) :
    (table.written item).findCode? item.code = some item := by
  rw [findCode?, items_written, List.find?_append, ← findCode?, findCode?_eq_none_iff.mpr alone]
  simp

theorem getCode_written {item : Item}
    (alone : ∀ other ∈ (table.erase item.id).items, other.code ≠ item.code) :
    (table.written item).getCode item.code = .ok item := by
  rw [getCode, findCode?_written alone]

theorem ne_of_mem_items_erase (distinct : table.keys.Nodup) {key : String} {item : Item}
    (held : item ∈ (table.erase key).items) : ∃ other ≠ key, table.find? other = some item := by
  obtain ⟨entry, mem, rfl⟩ := List.mem_map.mp held
  refine ⟨entry.1, ?_, find?_of_mem_entries distinct (List.mem_of_mem_filter mem)⟩
  rintro rfl
  exact notMem_keys_erase entry.1 (List.mem_map_of_mem mem)

theorem savesSafely_of_own_of_once (distinct : table.keys.Nodup) (unused : fresh ∉ table.keys)
    (own : table.OwnKeys block.code) (once : table.Once block.code) :
    table.SavesSafely fresh block now := by
  cases found : table.findCode? block.code with
  | none =>
      have absent := findCode?_eq_none_iff.mp found
      have written := upsert_eq_make absent (find?_eq_none_iff.mpr unused) now
      refine ⟨_, _, written, ⟨Item.make fresh block now, ?_, rfl, rfl⟩, fun key item there _ => ?_⟩
      · exact getCode_written fun other held => absent other (mem_items_erase held)
      · rw [find?_written_of_ne, there]
        rintro rfl
        exact unused (List.mem_map_of_mem (mem_entries_of_find? there))
  | some owner =>
      obtain ⟨key, there, sameCode⟩ := exists_find?_of_findCode? distinct found
      obtain rfl := own key owner there sameCode
      have written : table.upsert fresh block now =
          .ok ((owner.replace block now).receipt true, table.written (owner.replace block now)) := by
        rw [upsert, found]
        dsimp only
        rw [take_eq there]
        exact congrArg (fun after => Except.ok (_, after)) (insert_erase (owner.replace block now))
      refine ⟨_, _, written, ⟨owner.replace block now, ?_, rfl, rfl⟩, fun key item held other => ?_⟩
      · have alone : ∀ other ∈ (table.erase (owner.replace block now).id).items,
            other.code ≠ (owner.replace block now).code := by
          intro other held sameToo
          obtain ⟨key, differs, thereToo⟩ := ne_of_mem_items_erase distinct held
          exact differs (once _ _ _ _ thereToo there sameToo sameCode)
        exact getCode_written alone
      · rw [find?_written_of_ne, held]
        rintro rfl
        rw [show (owner.replace block now).id = owner.id from rfl, there] at held
        rw [← Option.some.inj held] at other
        exact other sameCode

/-- A single item of a code that is not under its own identifier is not saved safely: what stands
under its identifier, if anything does, has another code and gets lost. -/
theorem own_of_savesSafely (distinct : table.keys.Nodup) (once : table.Once block.code)
    (safe : table.SavesSafely fresh block now) : table.OwnKeys block.code := by
  obtain ⟨receipt, changed, done, -, kept⟩ := safe
  intro key item there sameCode
  rcases upsert_cases done with ⟨absent, -, -⟩ | ⟨owner, old, found, taken, rfl, rfl⟩
  · have held := mem_items_of_find? there
    exact absurd sameCode (findCode?_eq_none_iff.mp absent item held)
  · obtain ⟨place, standing, ownerCode⟩ := exists_find?_of_findCode? distinct found
    obtain rfl := once _ _ _ _ there standing sameCode ownerCode
    obtain rfl := Option.some.inj (there.symm.trans standing)
    by_contra misplaced
    have otherCode : old.code ≠ block.code := fun same =>
      misplaced (once _ _ _ _ taken there same sameCode)
    have still := kept item.id old taken otherCode
    rw [find?_insert] at still
    split at still
    · rw [← Option.some.inj still] at otherCode
      exact otherCode rfl
    · rw [find?_erase_self] at still
      cases still

/-- Of two items of a code that stand under their own identifiers the first one is overwritten and
put behind the second one, which is then found for the code. -/
theorem once_of_savesSafely (distinct : table.keys.Nodup) (own : table.OwnKeys block.code)
    (safe : table.SavesSafely fresh block now) : table.Once block.code := by
  obtain ⟨receipt, changed, done, ⟨item, got, sameId, -⟩, -⟩ := safe
  rcases upsert_cases done with ⟨absent, -, -⟩ | ⟨owner, old, found, taken, rfl, rfl⟩
  · intro key first _ _ there _ sameCode _
    exact absurd sameCode (findCode?_eq_none_iff.mp absent first (mem_items_of_find? there))
  · obtain ⟨key, there, ownerCode⟩ := exists_find?_of_findCode? distinct found
    obtain rfl := own key owner there ownerCode
    obtain rfl := Option.some.inj (there.symm.trans taken)
    -- Any other item of the code would be found before the one that was written.
    have alone (other : String) (held : Item) (thereToo : table.find? other = some held)
        (sameCode : held.code = block.code) : other = owner.id := by
      by_contra differs
      have kept : held ∈ (table.erase owner.id).items :=
        mem_items_of_find? ((find?_erase_of_ne differs).trans thereToo)
      cases sought : (table.erase owner.id).findCode? block.code with
      | none => exact findCode?_eq_none_iff.mp sought held kept sameCode
      | some first =>
          have before : ((table.erase owner.id).insert owner.id (owner.replace block now)).findCode?
              block.code = some first := by
            rw [show (owner.id) = (owner.replace block now).id from rfl, insert_erase, findCode?,
              items_written, List.find?_append, ← findCode?]
            exact (congrArg (Option.or · _) sought).trans rfl
          rw [getCode, before] at got
          obtain rfl := Except.ok.inj got
          obtain ⟨among, firstCode⟩ := code_of_findCode? sought
          obtain ⟨place, elsewhere, standing⟩ := ne_of_mem_items_erase distinct among
          exact elsewhere ((own place first standing firstCode).symm.trans sameId)
    intro key first other second thereFirst thereSecond firstCode secondCode
    rw [alone key first thereFirst firstCode, alone other second thereSecond secondCode]

/-- What saving does to a library that is read from any document. -/
theorem upsert_loaded {text : String} (loads : tableOfText text = .ok table)
    (unused : fresh ∉ table.keys) (block : Description) (now : Timestamp) :
    (∀ failure, table.upsert fresh block now = .error failure ↔
      ∃ owner, table.findCode? block.code = some owner ∧ owner.id ∉ table.keys ∧
        failure = .notFound owner.id) ∧
    (∀ receipt changed, table.upsert fresh block now = .ok (receipt, changed) →
      Found table changed block receipt) ∧
    (table.OwnKeys block.code → table.Once block.code → table.SavesSafely fresh block now) ∧
    (table.SavesSafely fresh block now → (table.OwnKeys block.code ↔ table.Once block.code)) := by
  have distinct := keys_nodup_of_loads loads
  refine ⟨fun failure => upsert_eq_error_iff, fun receipt changed => found_of_upsert,
    savesSafely_of_own_of_once distinct unused, fun safe => ⟨fun own => ?_, fun once => ?_⟩⟩
  · exact once_of_savesSafely distinct own safe
  · exact own_of_savesSafely distinct once safe

/-! ## A library with a stray item -/

/-- A description that breaks no rule. -/
def memoBlock (code : String) : Description := { emptyBlock code with about := "A memo" }

/-- A library with an item under its own identifier and one under another key. -/
def strayTable : Table :=
  ⟨[("a", Item.make "a" (memoBlock "cpb_first") firstHour),
    ("k", Item.make "x" (memoBlock "cpb_second") firstHour)]⟩

theorem fits_memoBlock (code : String) : (memoBlock code).Fits := by
  simp [memoBlock, emptyBlock, Description.Fits, Description.allFields]

theorem loads_strayTable : tableOfText (documentText strayTable) = .ok strayTable.reread := by
  refine tableOfText_documentText (by decide) fun item held => ?_
  simp only [strayTable, items, List.map_cons, List.map_nil, List.mem_cons, List.not_mem_nil,
    or_false] at held
  rcases held with rfl | rfl <;> exact Item.storable_make _ (fits_memoBlock _) _

theorem find?_strayTable {key : String} {item : Item}
    (found : strayTable.reread.find? key = some item) :
    (key = "a" ∧ item.id = "a" ∧ item.code = "cpb_first") ∨
      (key = "k" ∧ item.id = "x" ∧ item.code = "cpb_second") := by
  have among := mem_entries_of_find? found
  simp only [strayTable, Table.reread, List.map_cons, List.map_nil, List.mem_cons, Prod.mk.injEq,
    List.not_mem_nil, or_false] at among
  rcases among with ⟨rfl, rfl⟩ | ⟨rfl, rfl⟩
  · exact .inl ⟨rfl, rfl, rfl⟩
  · exact .inr ⟨rfl, rfl, rfl⟩

/-- The item in its place is saved safely. -/
theorem upsert_loaded_strayTable : ∃ table, tableOfText (documentText strayTable) = .ok table ∧
    "q" ∉ table.keys ∧ table.OwnKeys "cpb_first" ∧ table.Once "cpb_first" ∧
    table.SavesSafely "q" (memoBlock "cpb_first") firstHour := by
  have unused : "q" ∉ strayTable.reread.keys := by decide
  have own : strayTable.reread.OwnKeys "cpb_first" := by
    intro key item found code
    rcases find?_strayTable found with ⟨rfl, id, -⟩ | ⟨-, -, other⟩
    · exact id
    · exact absurd (other.symm.trans code) (by decide)
  have once : strayTable.reread.Once "cpb_first" := by
    intro key item other held found foundToo code codeToo
    rcases find?_strayTable found with ⟨rfl, -, -⟩ | ⟨-, -, differs⟩
    · rcases find?_strayTable foundToo with ⟨rfl, -, -⟩ | ⟨-, -, differs⟩
      · rfl
      · exact absurd (differs.symm.trans codeToo) (by decide)
    · exact absurd (differs.symm.trans code) (by decide)
  obtain ⟨-, -, safe, -⟩ := upsert_loaded loads_strayTable unused (memoBlock "cpb_first") firstHour
  exact ⟨_, loads_strayTable, unused, own, once, safe own once⟩

/-- The stray item is not: its identifier is no key, and saving fails. -/
theorem upsert_strayTable_eq_error : (memoBlock "cpb_second").issues = [] ∧
    ∃ table, tableOfText (documentText strayTable) = .ok table ∧ "q" ∉ table.keys ∧
      table.upsert "q" (memoBlock "cpb_second") firstHour = .error (.notFound "x") := by
  refine ⟨by decide +kernel, _, loads_strayTable, by decide, ?_⟩
  rw [upsert_eq_error_iff]
  exact ⟨(Item.make "x" (memoBlock "cpb_second") firstHour).reread, by rfl, by decide, rfl⟩

end Table

end BlockForge.Library
