/-
# A library in a file and one in memory

A library in a file writes its table after every change and reads it before every call, so its
replies are those of a table whose changes are written and read. The descriptions in it may change
by their doubles on this way, and by nothing else. If the stored form of every description that was
saved is read back from its own text, nothing changes, and the replies are those of a library in
memory: also when the file is opened anew, since nothing but the file is kept between two calls.
-/

import BlockForge.Proofs.Block.Accepted
import BlockForge.Proofs.Json.Settled
import BlockForge.Proofs.Library.Calls
import BlockForge.Proofs.Library.Document
import BlockForge.Proofs.Library.File

namespace BlockForge.Library

open BlockForge.Files BlockForge.Json

/-! ## Tables that can be written and read -/

namespace Table

variable {table changed : Table}

/-- Items stand under their own identifiers, and their descriptions can be written and read. -/
structure Sound (table : Table) : Prop where
  coherent : table.Coherent
  storable : table.Storable

theorem sound_empty : Sound .empty :=
  ⟨coherent_empty, fun item held => by cases held⟩

theorem keys_reread (table : Table) : table.reread.keys = table.keys := by
  rw [keys, keys, reread, List.map_map]
  rfl

theorem items_reread (table : Table) : table.reread.items = table.items.map Item.reread := by
  rw [items, items, reread, List.map_map, List.map_map]
  rfl

theorem find?_reread (table : Table) (key : String) :
    table.reread.find? key = (table.find? key).map Item.reread :=
  find?_mapItems Item.reread table key

theorem Coherent.reread (coherent : table.Coherent) : table.reread.Coherent where
  keyed entry held := by
    obtain ⟨before, there, rfl⟩ := List.mem_map.mp held
    exact coherent.keyed before there
  keysDistinct := by
    rw [keys_reread]
    exact coherent.keysDistinct
  codesDistinct := by
    rw [items_reread, List.map_map]
    exact coherent.codesDistinct

/-- A description can still be written and read after it was. -/
theorem Sound.reread (sound : table.Sound) : table.reread.Sound where
  coherent := sound.coherent.reread
  storable item held := by
    rw [items_reread] at held
    obtain ⟨before, there, rfl⟩ := List.mem_map.mp held
    exact (sound.storable before there).rearranged rearranging_restored

/-- A call that brings a description of numbers that fit leaves a table that can be written. -/
theorem Sound.change (sound : table.Sound) {call : Call} {change : Change Reply} {reply : Reply}
    (operation : call.operation = .alter change) (done : change table = .ok (reply, changed))
    (fits : ∀ block ∈ call.block?, block.Fits) : changed.Sound := by
  rcases sound.coherent.change_cases operation done with ⟨key, -, rfl⟩ | ⟨item, -, writing, wrote⟩
  · exact ⟨sound.coherent.erase key, fun item held => sound.storable item (mem_items_erase held)⟩
  · refine ⟨wrote.coherent, fun held among => ?_⟩
    rcases wrote.items held among with rfl | before
    · obtain ⟨block, brought, stored, -⟩ := writing.holds
      rw [Item.Storable, stored]
      exact (fits block brought).sized.rearranged rearranging_canonical
    · exact sound.storable held before

/-- The document of a table is read as the table with its descriptions read anew. -/
theorem Sound.tableOfText (sound : table.Sound) :
    tableOfText (documentText table) = .ok table.reread :=
  tableOfText_documentText sound.coherent.keysDistinct sound.storable

theorem Sound.perform (sound : table.Sound) {call : Call}
    (fits : ∀ block ∈ call.block?, block.Fits) :
    (call.operation.perform .reread table).2.Sound := by
  cases operation : call.operation with
  | look query => exact sound
  | alter change =>
      rw [Operation.perform]
      cases done : change table with
      | error failure => exact sound
      | ok answer => exact (sound.change operation done fits).reread

end Table

/-! ## The replies of a file -/

variable {path : String} {tree : FileTree} {table : Table}

/-- One call of a library in a file. -/
theorem Represents.outcome_on (represents : Represents path tree table) (sound : table.Sound)
    {call : Call} (fits : ∀ block ∈ call.block?, block.Fits) :
    ∃ after, outcome (call.on (fileStore path)) tree =
        ((call.operation.perform .reread table).1, after) ∧
      Represents path after (call.operation.perform .reread table).2 := by
  rw [Call.on]
  cases operation : call.operation with
  | look query => exact represents.outcome_query query
  | alter change =>
      obtain ⟨places, after, answered, follows⟩ := represents.outcome_change change
      refine ⟨after, answered.trans ?_, ?_⟩
      · rw [Operation.perform]
        cases change table <;> rfl
      · rw [Operation.perform]
        cases done : change table with
        | error failure => exact .inr ⟨places, follows.failed failure done⟩
        | ok answer =>
            obtain ⟨reply, changed⟩ := answer
            have decoded := (sound.change operation done fits).tableOfText
            exact .inr ⟨places, follows.changed reply changed _ done decoded⟩

/-- A library in a file replies as a table whose changes are written and read. -/
theorem Represents.serve (represents : Represents path tree table) (sound : table.Sound)
    {calls : List Call} (fits : ∀ call ∈ calls, ∀ block ∈ call.block?, block.Fits) :
    (serve (fileStore path) calls tree).1 = (replay .reread calls table).1 ∧
      Represents path (Library.serve (fileStore path) calls tree).2 (replay .reread calls table).2 ∧
      (replay .reread calls table).2.Sound := by
  induction calls generalizing tree table with
  | nil => exact ⟨rfl, represents, sound⟩
  | cons call rest ih =>
      obtain ⟨fitsHere, fitsLater⟩ := List.forall_mem_cons.mp fits
      obtain ⟨after, answered, still⟩ := represents.outcome_on sound fitsHere
      obtain ⟨replies, last, soundLast⟩ := ih still (sound.perform fitsHere) fitsLater
      rw [Library.serve, replay, answered]
      exact ⟨congrArg (_ :: ·) replies, last, soundLast⟩

/-! ## Agreement -/

namespace Table

/-- Writing and reading a table changes nothing. -/
def Settled (table : Table) : Prop := ∀ item ∈ table.items, item.reread = item

theorem Settled.reread (settled : table.Settled) : table.reread = table := by
  obtain ⟨entries⟩ := table
  refine congrArg Table.mk ((List.map_congr_left fun entry held => ?_).trans (List.map_id _))
  exact Prod.ext rfl (settled entry.2 (List.mem_map_of_mem held))

/-- A description whose stored form is read back leaves a table that stays as it is. -/
theorem Settled.change (settled : table.Settled) (sound : table.Sound) {changed : Table}
    {call : Call} {change : Change Reply} {reply : Reply} (operation : call.operation = .alter change)
    (done : change table = .ok (reply, changed))
    (readsBack : ∀ block ∈ call.block?, block.value.canonical.ReadsBack)
    (soundAfter : changed.Sound) : changed.Settled := by
  intro held among
  rcases sound.coherent.change_cases operation done with ⟨key, -, rfl⟩ | ⟨item, -, writing, wrote⟩
  · exact settled held (mem_items_erase among)
  · rcases wrote.items held among with rfl | before
    · obtain ⟨block, brought, stored, -⟩ := writing.holds
      obtain ⟨inRange, shallow⟩ := soundAfter.storable held among
      have same : held.stored.reread.canonical = held.stored := by
        rw [stored] at inRange shallow ⊢
        rw [(readsBack block brought).reread inRange (Nat.lt_of_le_of_lt shallow (by decide)),
          Value.canonical_canonical]
      rw [Item.reread, same]
    · exact settled held before

end Table

/-- If everything that is saved is read back, a table whose changes are written and read replies as
one that is kept as it is. -/
theorem replay_reread (settled : table.Settled) (sound : table.Sound) {calls : List Call}
    (kept : ∀ call ∈ calls, ∀ block ∈ call.block?,
      block.Fits ∧ block.value.canonical.ReadsBack) :
    replay .reread calls table = replay id calls table := by
  induction calls generalizing table with
  | nil => rfl
  | cons call rest ih =>
      obtain ⟨keptHere, keptLater⟩ := List.forall_mem_cons.mp kept
      have next : call.operation.perform .reread table = call.operation.perform id table ∧
          (call.operation.perform id table).2.Settled ∧
          (call.operation.perform id table).2.Sound := by
        cases operation : call.operation with
        | look query => exact ⟨rfl, settled, sound⟩
        | alter change =>
            rw [Operation.perform, Operation.perform]
            cases done : change table with
            | error failure => exact ⟨rfl, settled, sound⟩
            | ok answer =>
                have soundAfter := sound.change operation done
                  fun block brought => (keptHere block brought).1
                have settledAfter := settled.change sound operation done
                  (fun block brought => (keptHere block brought).2) soundAfter
                exact ⟨congrArg (Except.ok answer.1, ·) settledAfter.reread, settledAfter,
                  soundAfter⟩
      obtain ⟨same, settledNext, soundNext⟩ := next
      rw [replay, replay, same, ih settledNext soundNext keptLater]

/-- The replies of a library in a file that is opened anew for every session, and the files that
are left behind. -/
def serveSessions (path : String) :
    List (List Call) → FileTree → List (Except Failure Reply) × FileTree
  | [], tree => ([], tree)
  | session :: rest, tree =>
    let first := serve (fileStore path) session tree
    let others := serveSessions path rest first.2
    (first.1 ++ others.1, others.2)

theorem serve_append {σ : Type} (store : Store fun α => ExceptT Failure (StateM σ) α)
    (first second : List Call) (state : σ) :
    serve store (first ++ second) state =
      ((serve store first state).1 ++ (serve store second (serve store first state).2).1,
        (serve store second (serve store first state).2).2) := by
  induction first generalizing state with
  | nil => rfl
  | cons call rest ih =>
      rw [List.cons_append, serve, serve, ih]
      rfl

/-- Opening a file anew makes no difference. -/
theorem serveSessions_eq (path : String) (sessions : List (List Call)) (tree : FileTree) :
    serveSessions path sessions tree = serve (fileStore path) sessions.flatten tree := by
  induction sessions generalizing tree with
  | nil => rfl
  | cons session rest ih => rw [serveSessions, List.flatten_cons, serve_append, ih]

/-- A library can be kept in an empty working directory. -/
theorem vacant_empty : Vacant "library.json" .empty where
  wellFormed listed held := by cases held
  absent := by decide +kernel
  usable := rfl

/-- Two descriptions are saved; then the file is opened anew, one of them cannot be given the code of
the other, one is removed, and the rest is looked at. -/
def twoSessions : List (List Call) :=
  [[.save "p" Description.bannerBlock firstHour, .save "q" (emptyBlock "b") firstHour],
    [.overwrite "p" (emptyBlock "b") secondHour, .remove "q", .get "q", .description "p", .list]]

end BlockForge.Library
