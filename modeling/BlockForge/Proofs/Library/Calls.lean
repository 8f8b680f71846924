/-
# Calls of a library

A client calls a library to save, overwrite, remove and look at descriptions. Each call looks at
the table or changes it, and a store says what becomes of the table. What a call does is stated
here for the table alone, with what becomes of a changed table left open: a table in memory is kept
as it is, and one in a file is written and read.

Identifiers are whatever the caller draws. Even one that is in use, drawn for a new item, keeps a
table coherent: the new item takes the place of the old one.
-/

import BlockForge.Proofs.Files.Action
import BlockForge.Proofs.Library.Run

namespace BlockForge.Library

open BlockForge.Files

/-! ## Calls and replies -/

inductive Call where
  | save (fresh : String) (block : Description) (now : Timestamp)
  | overwrite (key : String) (block : Description) (now : Timestamp)
  | remove (key : String)
  | get (key : String)
  | getCode (code : String)
  | list
  | description (key : String)

inductive Reply where
  | saved (receipt : Receipt)
  | overwritten (item : Item)
  | removed
  | found (item : Item)
  | listed (summaries : List Summary)
  | described (block : Description)

/-- The identifier of the item that a call has written. -/
def Reply.written? : Reply → Option String
  | saved receipt => some receipt.id
  | overwritten item => some item.id
  | _ => none

/-- What a call does with a table: it looks at it or changes it. -/
inductive Operation where
  | look (query : Query Reply)
  | alter (change : Change Reply)

namespace Call

def operation : Call → Operation
  | save fresh block now => .alter fun table =>
    (saving fresh block now table).map fun (receipt, after) => (.saved receipt, after)
  | overwrite key block now => .alter fun table =>
    (updating key block now table).map fun (item, after) => (.overwritten item, after)
  | remove key => .alter fun table => (deleting key table).map fun ((), after) => (.removed, after)
  | get key => .look fun table => (table.get key).map .found
  | getCode code => .look fun table => (table.getCode code).map .found
  | list => .look fun table => .ok (.listed table.list)
  | description key => .look fun table => (table.description key).map .described

/-- A call of a store. -/
def on {m : Type → Type} (store : Store m) (call : Call) : m Reply :=
  match call.operation with
  | .look query => store.query query
  | .alter change => store.change change

def request? : Call → Option Request
  | save fresh block now => some (.save fresh block now)
  | overwrite key block now => some (.overwrite key block now)
  | remove key => some (.remove key)
  | _ => none

def block? : Call → Option Description
  | save _ block _ => some block
  | overwrite _ block _ => some block
  | _ => none

theorem forall_brought_iff {p : Description → Prop} {calls : List Call} :
    (∀ block ∈ calls.filterMap block?, p block) ↔ ∀ call ∈ calls, ∀ block ∈ call.block?, p block := by
  simp only [List.mem_filterMap, Option.mem_def]
  constructor
  · intro all call held block brought
    exact all block ⟨call, held, brought⟩
  · rintro all block ⟨call, held, brought⟩
    exact all call held block brought

end Call

def Request.call : Request → Call
  | save fresh block now => .save fresh block now
  | overwrite key block now => .overwrite key block now
  | remove key => .remove key

/-- The replies of a store to calls one after the other, and the state that they leave behind. -/
def serve {σ : Type} (store : Store fun α => ExceptT Failure (StateM σ) α) :
    List Call → σ → List (Except Failure Reply) × σ
  | [], state => ([], state)
  | call :: rest, state =>
    let answered := outcome (call.on store) state
    let others := serve store rest answered.2
    (answered.1 :: others.1, others.2)

/-- What an operation gives on a table, and the table that it leaves behind, of which a change is
kept in some way. -/
def Operation.perform (keep : Table → Table) (table : Table) :
    Operation → Except Failure Reply × Table
  | look query => (query table, table)
  | alter change =>
    match change table with
    | .ok (reply, changed) => (.ok reply, keep changed)
    | .error failure => (.error failure, table)

/-- The replies to calls on a table whose changes are kept in some way. -/
def replay (keep : Table → Table) : List Call → Table → List (Except Failure Reply) × Table
  | [], table => ([], table)
  | call :: rest, table =>
    let answered := call.operation.perform keep table
    let others := replay keep rest answered.2
    (answered.1 :: others.1, others.2)

/-- A table in memory keeps what a change makes of it. -/
theorem outcome_on_memoryStore (call : Call) (table : Table) :
    outcome (call.on memoryStore) table = call.operation.perform id table := by
  rw [Call.on]
  cases call.operation with
  | look query =>
      refine (outcome_bind_of_ok rfl).trans ?_
      rw [Operation.perform]
      cases query table <;> rfl
  | alter change =>
      rw [Operation.perform]
      refine (outcome_bind_of_ok rfl).trans ?_
      cases change table <;> rfl

theorem serve_memoryStore (calls : List Call) (table : Table) :
    serve memoryStore calls table = replay id calls table := by
  induction calls generalizing table with
  | nil => rfl
  | cons call rest ih => rw [serve, replay, outcome_on_memoryStore, ih]

/-! ## Requests of calls -/

variable {requests : List Request} {history : History}

theorem Run.eq_foldl (run : Run requests history) :
    history = requests.foldl History.step .start := by
  induction run with
  | start => rfl
  | next earlier request unused ih => rw [List.foldl_append, ← ih, List.foldl_cons, List.foldl_nil]

/-- A request leaves the table behind that its call leaves in memory. -/
theorem History.table_step (history : History) (request : Request) :
    (history.step request).table = (request.call.operation.perform id history.table).2 := by
  simp only [step, answer_eq]
  cases request with
  | save fresh block now =>
      simp only [Request.change, Request.call, Call.operation, Operation.perform]
      cases saving fresh block now history.table <;> rfl
  | overwrite key block now =>
      simp only [Request.change, Request.call, Call.operation, Operation.perform]
      cases updating key block now history.table <;> rfl
  | remove key =>
      simp only [Request.change, Request.call, Call.operation, Operation.perform]
      cases deleting key history.table <;> rfl

theorem Call.eq_of_request? (call : Call) {request : Request}
    (sent : call.request? = some request) : call = request.call := by
  cases call <;> cases sent <;> rfl

/-- A call that sends no request leaves a table as it is. -/
theorem Call.perform_of_request?_eq_none (call : Call) (sent : call.request? = none)
    (keep : Table → Table) (table : Table) : (call.operation.perform keep table).2 = table := by
  cases call with
  | save | overwrite | remove => cases sent
  | get | getCode | list | description => rfl

/-- Calls leave in memory the table of the requests that they send. -/
theorem replay_table (calls : List Call) (history : History) :
    (replay id calls history.table).2 =
      ((calls.filterMap Call.request?).foldl History.step history).table := by
  induction calls generalizing history with
  | nil => rfl
  | cons call rest ih =>
      show (replay id rest (call.operation.perform id history.table).2).2 = _
      cases sent : call.request? with
      | none =>
          rw [List.filterMap_cons_none sent, call.perform_of_request?_eq_none sent]
          exact ih history
      | some request =>
          rw [List.filterMap_cons_some sent, call.eq_of_request? sent, ← History.table_step]
          exact ih (history.step request)

theorem Run.replay_eq {calls : List Call} (run : Run (calls.filterMap Call.request?) history) :
    (replay id calls .empty).2 = history.table := by
  rw [run.eq_foldl]
  exact replay_table calls .start

/-! ## One call -/

namespace Table

variable {table changed : Table}

theorem lookup_map_replace (key : String) (item : Item) (other : String)
    (entries : List (String × Item)) :
    (entries.map fun entry => if entry.1 = key then (entry.1, item) else entry).lookup other =
      if other = key then (entries.lookup other).map fun _ => item else entries.lookup other := by
  induction entries with
  | nil => simp
  | cons entry rest ih =>
      obtain ⟨name, held⟩ := entry
      rw [List.map_cons]
      by_cases sought : other = name
      · subst sought
        by_cases here : other = key <;> simp [here]
      · have differs : (other == name) = false := beq_eq_false_iff_ne.mpr sought
        by_cases here : name = key
        · subst here
          simp [List.lookup_cons, differs, ih]
        · simp [here, List.lookup_cons, differs, ih]

/-- An item is found under the key that it was put under, and everything else as before. -/
theorem find?_insert (key : String) (item : Item) (other : String) :
    (table.insert key item).find? other = if other = key then some item else table.find? other := by
  rw [insert]
  split
  · rename_i there
    rw [find?, lookup_map_replace]
    split
    · rename_i same
      obtain ⟨held, found⟩ := Option.isSome_iff_exists.mp there
      rw [find?] at found
      rw [same, found]
      rfl
    · rfl
  · rename_i absent
    have absent : table.find? key = none := by simpa using absent
    rw [find?] at absent
    rw [find?, List.lookup_append]
    split
    · rename_i same
      rw [same, absent]
      simp
    · rename_i differs
      rw [List.lookup_cons, beq_eq_false_iff_ne.mpr differs]
      simp [find?]

theorem mem_items_insert {key : String} {item held : Item}
    (among : held ∈ (table.insert key item).items) : held = item ∨ held ∈ table.items := by
  obtain ⟨entry, listed, rfl⟩ := List.mem_map.mp among
  rw [insert] at listed
  split at listed
  · obtain ⟨old, there, rfl⟩ := List.mem_map.mp listed
    dsimp only
    split
    · exact .inl rfl
    · exact .inr (List.mem_map_of_mem there)
  · rcases List.mem_append.mp listed with before | last
    · exact .inr (List.mem_map_of_mem before)
    · rw [List.mem_singleton.mp last]
      exact .inl rfl

/-- A table stays coherent if no other item has the code of the item that is put in. -/
theorem Coherent.insert (coherent : table.Coherent) {item : Item}
    (own : ∀ other ∈ table.items, other.code = item.code → other.id = item.id) :
    (table.insert item.id item).Coherent := by
  cases found : table.find? item.id with
  | none =>
      rw [insert_of_find?_eq_none found]
      exact coherent.written own
  | some old =>
      have replaced : (table.insert item.id item).entries =
          table.entries.map fun entry => if entry.1 = item.id then (entry.1, item) else entry := by
        rw [Table.insert, found]
        rfl
      constructor
      case keyed =>
        intro entry held
        rw [replaced] at held
        obtain ⟨before, there, rfl⟩ := List.mem_map.mp held
        split
        · assumption
        · exact coherent.keyed before there
      case keysDistinct =>
        have same : (table.insert item.id item).keys = table.keys := by
          rw [keys, replaced, List.map_map]
          refine List.map_congr_left fun entry _ => ?_
          rw [Function.comp_apply]
          split <;> rfl
        rw [same]
        exact coherent.keysDistinct
      case codesDistinct =>
        rw [items, replaced, List.map_map, List.map_map]
        refine List.Nodup.map_on ?_ (List.Nodup.of_map _ coherent.keysDistinct)
        intro first held second heldToo same
        have keyed := coherent.keyed first held
        have keyedToo := coherent.keyed second heldToo
        have listed := List.mem_map_of_mem (f := (·.2)) held
        have listedToo := List.mem_map_of_mem (f := (·.2)) heldToo
        simp only [Function.comp_apply] at same
        have sameKey : first.1 = second.1 := by
          by_cases here : first.1 = item.id <;> by_cases there : second.1 = item.id
          · exact here.trans there.symm
          · rw [if_pos here, if_neg there] at same
            exact absurd (keyedToo.trans (own _ listedToo same.symm)) there
          · rw [if_neg here, if_pos there] at same
            exact absurd (keyed.trans (own _ listed same)) here
          · rw [if_neg here, if_neg there] at same
            rw [keyed, keyedToo, coherent.eq_of_code listed listedToo same]
        exact List.inj_on_of_nodup_map coherent.keysDistinct held heldToo sameKey

/-- An item stands in a table, and everything else is as it was. -/
structure Wrote (table changed : Table) (item : Item) : Prop where
  coherent : changed.Coherent
  items : ∀ held ∈ changed.items, held = item ∨ held ∈ table.items
  found : changed.find? item.id = some item
  others : ∀ key ≠ item.id, changed.find? key = table.find? key

theorem Coherent.wrote_written (coherent : table.Coherent) {item : Item}
    (own : ∀ other ∈ table.items, other.code = item.code → other.id = item.id) :
    Wrote table (table.written item) item where
  coherent := coherent.written own
  items held among := by
    rw [items_written] at among
    rcases List.mem_append.mp among with kept | last
    · exact .inr (mem_items_erase kept)
    · exact .inl (List.mem_singleton.mp last)
  found := find?_written_self item
  others _ other := find?_written_of_ne other

theorem Coherent.wrote_insert (coherent : table.Coherent) {item : Item}
    (own : ∀ other ∈ table.items, other.code = item.code → other.id = item.id) :
    Wrote table (table.insert item.id item) item where
  coherent := coherent.insert own
  items _ among := mem_items_insert among
  found := by rw [find?_insert, if_pos rfl]
  others key other := by rw [find?_insert, if_neg other]

end Table

/-- The item that a call writes: it overwrites the item of its code or of its key, or it is new. -/
inductive Writing (table : Table) : Call → Item → Prop where
  | ofCode {old : Item} {block : Description} (held : old ∈ table.items)
      (sameCode : old.code = block.code) (fresh : String) (now : Timestamp) :
      Writing table (.save fresh block now) (old.replace block now)
  | new {block : Description} (absent : ∀ item ∈ table.items, item.code ≠ block.code)
      (fresh : String) (now : Timestamp) :
      Writing table (.save fresh block now) (Item.make fresh block now)
  | ofKey {old : Item} {block : Description} (held : old ∈ table.items)
      (own : ∀ other ∈ table.items, other.code = block.code → other.id = old.id) (now : Timestamp) :
      Writing table (.overwrite old.id block now) (old.replace block now)

namespace Writing

variable {table : Table} {call : Call} {item : Item}

/-- What is written holds the description of the call. -/
theorem holds (writing : Writing table call item) : ∃ block, call.block? = some block ∧
    item.stored = block.value.canonical ∧ item.code = block.code := by
  cases writing with
  | ofCode held sameCode fresh now => exact ⟨_, rfl, rfl, rfl⟩
  | new absent fresh now => exact ⟨_, rfl, rfl, rfl⟩
  | ofKey held own now => exact ⟨_, rfl, rfl, rfl⟩

/-- No other item has the code of what is written. -/
theorem own (coherent : table.Coherent) (writing : Writing table call item) :
    ∀ other ∈ table.items, other.code = item.code → other.id = item.id := by
  cases writing with
  | ofCode held sameCode fresh now =>
      intro other heldToo same
      rw [coherent.eq_of_code heldToo held (same.trans sameCode.symm)]
      rfl
  | new absent fresh now =>
      intro other held same
      exact absurd same (absent other held)
  | ofKey held own now => exact own

end Writing

namespace Table

variable {table changed : Table}

/-- Saving always succeeds. -/
theorem Coherent.upsert_cases (coherent : table.Coherent) (fresh : String) (block : Description)
    (now : Timestamp) : ∃ item replaced changed,
      table.upsert fresh block now = .ok (item.receipt replaced, changed) ∧
      Writing table (.save fresh block now) item ∧ Wrote table changed item := by
  by_cases known : ∃ old ∈ table.items, old.code = block.code
  · obtain ⟨old, held, sameCode⟩ := known
    have writing := Writing.ofCode held sameCode fresh now
    exact ⟨_, _, _, coherent.upsert_eq_replace held sameCode fresh now, writing,
      coherent.wrote_written (writing.own coherent)⟩
  · have absent : ∀ item ∈ table.items, item.code ≠ block.code := by
      intro item held same
      exact known ⟨item, held, same⟩
    have made : table.upsert fresh block now = .ok ((Item.make fresh block now).receipt false,
        table.insert fresh (Item.make fresh block now)) := by
      rw [upsert, findCode?_eq_none_iff.mpr absent]
      rfl
    have writing := Writing.new absent fresh now
    exact ⟨_, _, _, made, writing, coherent.wrote_insert (writing.own coherent)⟩

/-- A change takes one item out, or writes one and tells its identifier. -/
theorem Coherent.change_cases (coherent : table.Coherent) {call : Call} {change : Change Reply}
    {reply : Reply} (operation : call.operation = .alter change)
    (done : change table = .ok (reply, changed)) :
    (∃ key, call = .remove key ∧ changed = table.erase key) ∨
      ∃ item, reply.written? = some item.id ∧ Writing table call item ∧
        Wrote table changed item := by
  cases call with
  | save fresh block now =>
      obtain rfl := Operation.alter.inj operation
      obtain ⟨item, replaced, after, saved, writing, wrote⟩ := coherent.upsert_cases fresh block now
      replace done : (table.upsert fresh block now).map _ = .ok (reply, changed) := done
      rw [saved] at done
      obtain ⟨rfl, rfl⟩ := Prod.mk.inj (Except.ok.inj done)
      exact .inr ⟨item, rfl, writing, wrote⟩
  | overwrite key block now =>
      obtain rfl := Operation.alter.inj operation
      replace done : (table.update key block now).map _ = .ok (reply, changed) := done
      cases found : table.find? key with
      | none =>
          rw [update_eq_notFound found] at done
          cases done
      | some old =>
          have held := mem_items_of_find? found
          obtain rfl := coherent.id_of_find? found
          by_cases taken : ∃ owner ∈ table.items, owner.code = block.code ∧ owner.id ≠ old.id
          · obtain ⟨owner, heldToo, sameCode, other⟩ := taken
            rw [coherent.update_eq_conflict found heldToo sameCode other] at done
            cases done
          · push Not at taken
            rw [coherent.update_eq_replace found taken] at done
            obtain ⟨rfl, rfl⟩ := Prod.mk.inj (Except.ok.inj done)
            have writing := Writing.ofKey held taken now
            exact .inr ⟨_, rfl, writing, coherent.wrote_written (writing.own coherent)⟩
  | remove key =>
      obtain rfl := Operation.alter.inj operation
      replace done : ((table.delete key).map _).map _ = .ok (reply, changed) := done
      cases found : table.find? key with
      | none =>
          rw [delete_eq_notFound found] at done
          cases done
      | some old =>
          rw [delete_eq_erase found] at done
          obtain ⟨-, rfl⟩ := Prod.mk.inj (Except.ok.inj done)
          exact .inl ⟨key, rfl, rfl⟩
  | get key => cases operation
  | getCode code => cases operation
  | list => cases operation
  | description key => cases operation

end Table

end BlockForge.Library
