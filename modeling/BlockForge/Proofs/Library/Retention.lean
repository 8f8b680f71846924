/-
# What becomes of a description in a library

A description stays in a library under its identifier, and is found there, whatever is done to other
items. In a file it is written and read once more with every successful change, and each time the
numbers of its sliders are what their digits are taken for. So a description is returned with the
numbers that this leaves after as many rounds, numbers that are not finite left out. It is returned
as it was saved exactly if all of its numbers come through.

Everything else comes back as it was, also from the text that is shown of an item.
-/

import BlockForge.Proofs.Library.Agreement
import BlockForge.Proofs.Library.Answers
import BlockForge.Work.Library

namespace BlockForge.Library

open BlockForge.Files BlockForge.Json

/-! ## Calls that spare an item -/

/-- A call changes the library. -/
def Reply.changes : Except Failure Reply → Bool
  | .ok (.saved _) => true
  | .ok (.overwritten _) => true
  | .ok .removed => true
  | _ => false

namespace Call

/-- A call does not write or remove the item of an identifier and a code. -/
def Spares (id code : String) : Call → Prop
  | save fresh block _ => fresh ≠ id ∧ block.code ≠ code
  | overwrite key _ _ => key ≠ id
  | remove key => key ≠ id
  | _ => True

theorem changes_of_alter {call : Call} {change : Change Reply} {table changed : Table}
    {reply : Reply} (operation : call.operation = .alter change)
    (done : change table = .ok (reply, changed)) : Reply.changes (.ok reply) = true := by
  cases call
  case save | overwrite | remove =>
    obtain rfl := Operation.alter.inj operation
    obtain ⟨answer, -, same⟩ := map_eq_ok done
    rw [← (Prod.mk.inj same).1]
    rfl
  all_goals cases operation

theorem not_changes_of_look {call : Call} {query : Query Reply}
    (operation : call.operation = .look query) (table : Table) :
    Reply.changes (query table) = false := by
  have looked {α : Type} {tell : α → Reply} (tells : ∀ a, Reply.changes (.ok (tell a)) = false)
      (result : Except Failure α) : Reply.changes (result.map tell) = false := by
    cases result with
    | error failure => rfl
    | ok a => exact tells a
  cases call
  case get | getCode | description =>
    obtain rfl := Operation.look.inj operation
    exact looked (fun _ => rfl) _
  case list =>
    obtain rfl := Operation.look.inj operation
    rfl
  all_goals cases operation

end Call

namespace Table

variable {table changed : Table} {item : Item}

/-- An item that a change spares is found as before. -/
theorem Coherent.find?_of_spares (coherent : table.Coherent) {call : Call} {change : Change Reply}
    {reply : Reply} (operation : call.operation = .alter change)
    (done : change table = .ok (reply, changed)) {id : String} (found : table.find? id = some item)
    (spares : call.Spares id item.code) : changed.find? id = some item := by
  rcases coherent.change_cases operation done with ⟨key, rfl, rfl⟩ | ⟨written, -, writing, wrote⟩
  · rw [find?_erase_of_ne (Ne.symm spares), found]
  · have differs : id ≠ written.id := by
      cases writing with
      | ofCode held sameCode fresh now =>
          rintro rfl
          have same := (coherent.find?_id held).symm.trans found
          rw [Option.some.inj same] at sameCode
          exact spares.2 sameCode.symm
      | new absent fresh now => exact Ne.symm spares.1
      | ofKey held own now => exact Ne.symm spares
    rw [wrote.others id differs, found]

/-- A table retains a description under an identifier, written and read for some rounds. -/
def Retains (table : Table) (id : String) (block : Description) (rounds : Nat) : Prop :=
  ∃ item, table.find? id = some item ∧ item.code = block.code ∧
    item.stored = Value.restored^[rounds] block.value.canonical

theorem Retains.reread {id : String} {block : Description} {rounds : Nat}
    (retains : table.Retains id block rounds) : table.reread.Retains id block (rounds + 1) := by
  obtain ⟨item, found, code, stored⟩ := retains
  refine ⟨item.reread, ?_, code, ?_⟩
  · rw [find?_reread, found]
    rfl
  · rw [Function.iterate_succ_apply', ← stored]
    rfl

/-- One call that spares a description. -/
theorem Retains.perform {id : String} {block : Description} {rounds : Nat}
    (retains : table.Retains id block rounds) (coherent : table.Coherent) {call : Call}
    (spares : call.Spares id block.code) :
    (call.operation.perform .reread table).2.Retains id block
      (rounds + [(call.operation.perform .reread table).1].countP Reply.changes) := by
  cases operation : call.operation with
  | look query =>
      have looked := Call.not_changes_of_look operation table
      simpa [Operation.perform, looked] using retains
  | alter change =>
      rw [Operation.perform]
      cases done : change table with
      | error failure => exact retains
      | ok answer =>
          obtain ⟨reply, changed⟩ := answer
          obtain ⟨item, found, code, stored⟩ := retains
          rw [← code] at spares
          have kept : changed.Retains id block rounds :=
            ⟨item, coherent.find?_of_spares operation done found spares, code, stored⟩
          have counted := Call.changes_of_alter operation done
          simpa [counted] using kept.reread

/-- A description is retained through all calls that spare it, for a round more with every change. -/
theorem Retains.replay {id : String} {block : Description} {rounds : Nat}
    (retains : table.Retains id block rounds) (sound : table.Sound) {calls : List Call}
    (spares : ∀ call ∈ calls, call.Spares id block.code)
    (fits : ∀ call ∈ calls, ∀ block ∈ call.block?, block.Fits) :
    (replay .reread calls table).2.Retains id block
      (rounds + (replay .reread calls table).1.countP Reply.changes) := by
  induction calls generalizing table rounds with
  | nil => exact retains
  | cons call rest ih =>
      obtain ⟨sparesHere, sparesLater⟩ := List.forall_mem_cons.mp spares
      obtain ⟨fitsHere, fitsLater⟩ := List.forall_mem_cons.mp fits
      have last := ih (retains.perform sound.coherent sparesHere) (sound.perform fitsHere)
        sparesLater fitsLater
      rw [Nat.add_assoc, ← List.countP_append] at last
      exact last

end Table

/-! ## Descriptions in a file -/

/-- A library in a file retains a description under an identifier, written and read for some
rounds. -/
def Retained (path : String) (tree : FileTree) (id : String) (block : Description)
    (rounds : Nat) : Prop :=
  ∃ table, Represents path tree table ∧ table.Sound ∧ table.Retains id block rounds

variable {path id : String} {tree after : FileTree} {table : Table} {block : Description}
variable {rounds : Nat}

theorem Table.Wrote.retains {changed : Table} {item : Item} (wrote : table.Wrote changed item)
    {call : Call} (writing : Writing table call item) (brought : call.block? = some block) :
    changed.Retains item.id block 0 := by
  obtain ⟨other, broughtToo, stored, code⟩ := writing.holds
  obtain rfl := Option.some.inj (broughtToo.symm.trans brought)
  exact ⟨item, wrote.found, code, stored⟩

/-- A description is retained after a call that has written it. -/
theorem Represents.retained (represents : Represents path tree table) (sound : table.Sound)
    {call : Call} (brought : call.block? = some block) (fits : block.Fits) {reply : Reply}
    (answered : outcome (call.on (fileStore path)) tree = (.ok reply, after)) :
    ∃ id, reply.written? = some id ∧ Retained path after id block 1 := by
  have brings : ∀ other ∈ call.block?, other.Fits := by
    rw [brought]
    rintro _ ⟨rfl⟩
    exact fits
  obtain ⟨left, performed, still⟩ := represents.outcome_on sound brings
  obtain ⟨given, rfl⟩ := Prod.mk.inj (answered.symm.trans performed)
  have soundAfter := sound.perform brings
  cases operation : call.operation with
  | look query =>
      cases call
      case save | overwrite => cases operation
      all_goals cases brought
  | alter change =>
      rw [operation, Operation.perform] at given still soundAfter
      cases done : change table with
      | error failure =>
          rw [done] at given
          cases given
      | ok answer =>
          rw [done] at given still soundAfter
          obtain rfl := Except.ok.inj given
          rcases sound.coherent.change_cases operation done with
            ⟨key, rfl, -⟩ | ⟨item, written, writing, wrote⟩
          · cases brought
          · exact ⟨item.id, written, _, still, soundAfter, (wrote.retains writing brought).reread⟩

/-- Saving a description always succeeds. -/
theorem Represents.outcome_save (represents : Represents path tree table) (sound : table.Sound)
    (fresh : String) (fits : block.Fits) (now : Timestamp) :
    ∃ receipt after, outcome ((Call.save fresh block now).on (fileStore path)) tree =
        (.ok (.saved receipt), after) ∧ Retained path after receipt.id block 1 := by
  obtain ⟨item, replaced, changed, saved, -, -⟩ := sound.coherent.upsert_cases fresh block now
  have performed : ((Call.save fresh block now).operation.perform .reread table).1 =
      .ok (.saved (item.receipt replaced)) := by
    rw [Call.operation, Operation.perform, saving, saved]
    rfl
  have brings : ∀ other ∈ (Call.save fresh block now).block?, other.Fits := by
    rintro _ ⟨rfl⟩
    exact fits
  obtain ⟨after, answered, -⟩ := represents.outcome_on sound brings
  rw [performed] at answered
  obtain ⟨id, written, retained⟩ := represents.retained sound rfl fits answered
  obtain rfl := Option.some.inj written
  exact ⟨_, after, answered, retained⟩

/-- A description is retained through all calls that spare it. -/
theorem Retained.serve (retained : Retained path tree id block rounds) {calls : List Call}
    (spares : ∀ call ∈ calls, call.Spares id block.code)
    (fits : ∀ call ∈ calls, ∀ block ∈ call.block?, block.Fits) :
    Retained path (Library.serve (fileStore path) calls tree).2 id block
      (rounds + (Library.serve (fileStore path) calls tree).1.countP Reply.changes) := by
  obtain ⟨table, represents, sound, retains⟩ := retained
  obtain ⟨replies, still, soundAfter⟩ := represents.serve sound fits
  rw [replies]
  exact ⟨_, still, soundAfter, retains.replay sound spares fits⟩

/-- The item of a description that is retained. -/
theorem Retained.item (retained : Retained path tree id block rounds) :
    ∃ table item, Represents path tree table ∧ table.find? id = some item ∧
      item.stored = Value.restored^[rounds] block.value.canonical := by
  obtain ⟨table, represents, -, item, found, -, stored⟩ := retained
  exact ⟨table, item, represents, found, stored⟩

/-- A description that is retained is returned with the numbers that are left. -/
theorem Retained.description (retained : Retained path tree id block rounds)
    (valid : block.issues = []) (fits : block.Fits) :
    (outcome ((Call.description id).on (fileStore path)) tree).1 =
      .ok (.described (block.withFloats Binary64.reread^[rounds])) := by
  obtain ⟨table, item, represents, found, stored⟩ := retained.item
  obtain ⟨after, answered, -⟩ := represents.outcome_query
    fun table => (table.description id).map Reply.described
  have read : item.description = .ok (block.withFloats Binary64.reread^[rounds]) := by
    rw [Item.description, stored,
      Description.ofValue_rearranged (rearranging_iterate_restored rounds) valid fits]
  have described : table.description id = .ok (block.withFloats Binary64.reread^[rounds]) := by
    rw [Table.description, Table.get_of_find? found]
    exact read
  have whole : outcome ((Call.description id).on (fileStore path)) tree = _ := answered
  rw [whole, described]
  rfl

/-! ## What is returned -/

/-- The description that is returned after some rounds has the numbers that are left after as many,
and it is the one that was saved exactly if all numbers come through. -/
structure Returned (path : String) (tree : FileTree) (id : String) (block : Description)
    (rounds : Nat) : Prop where
  description : (outcome ((Call.description id).on (fileStore path)) tree).1 =
    .ok (.described (block.withFloats Binary64.reread^[rounds]))
  unchanged_iff : (outcome ((Call.description id).on (fileStore path)) tree).1 =
      .ok (.described block) ↔
    ∀ number ∈ block.numbers, number.isFinite ∧ Binary64.reread^[rounds] number = number

theorem Retained.returned (retained : Retained path tree id block rounds)
    (valid : block.issues = []) (fits : block.Fits) : Returned path tree id block rounds where
  description := retained.description valid fits
  unchanged_iff := by
    rw [retained.description valid fits, Except.ok.injEq, Reply.described.injEq]
    exact Description.withFloats_eq_self_iff

/-- A description that was saved in a file, at any time, is returned after any calls that spare it:
with the numbers that are left when it was written and read once, and once more for every change
among these calls. -/
theorem description_returned (vacant : Vacant path tree) (before later : List Call) (fresh : String)
    (now : Timestamp) (valid : block.issues = [])
    (fits : ∀ brought ∈ (before ++ .save fresh block now :: later).filterMap Call.block?,
      brought.Fits) :
    ∃ receipt saved,
      outcome ((Call.save fresh block now).on (fileStore path))
        (serve (fileStore path) before tree).2 = (.ok (.saved receipt), saved) ∧
      ((∀ call ∈ later, call.Spares receipt.id block.code) →
        Returned path (serve (fileStore path) later saved).2 receipt.id block
          (1 + (serve (fileStore path) later saved).1.countP Reply.changes)) := by
  obtain ⟨fitsBefore, fitsRest⟩ := List.forall_mem_append.mp (Call.forall_brought_iff.mp fits)
  obtain ⟨fitsHere, fitsLater⟩ := List.forall_mem_cons.mp fitsRest
  have fitsBlock := fitsHere block rfl
  have start : Represents path tree .empty := .inl ⟨vacant, rfl⟩
  obtain ⟨-, opened, sound⟩ := start.serve Table.sound_empty fitsBefore
  obtain ⟨receipt, saved, answered, retained⟩ := opened.outcome_save sound fresh fitsBlock now
  refine ⟨receipt, saved, answered, fun spares => ?_⟩
  exact (retained.serve spares fitsLater).returned valid fitsBlock

/-- A block with a slider whose greatest position is the largest of the integers up to which there
is a double for every one. -/
def wideBlock : Description where
  blockName := "Banner"
  template := "banner.tpl"
  code := "cpb_banner"
  displayName := "Banner"
  about := "A banner"
  tab := Description.defaultTab
  icon := Description.defaultIcon
  hasRepeater := false
  fields := [⟨"width", "Width", none, .slider ⟨none, none, none, some (.ofInt 9007199254740991)⟩⟩]
  repeater := none

/-- The same block as it may be described. -/
def wideValue : Value :=
  .object [
    ("blockName", .string "Banner"), ("tplFilename", .string "banner.tpl"),
    ("code", .string "cpb_banner"), ("nameLabel", .string "Banner"),
    ("description", .string "A banner"), ("hasRepeater", .bool false),
    ("fields", .array [
      .object [
        ("type", .string "slider"), ("name", .string "width"), ("label", .string "Width"),
        ("max", .number (.unsigned 9007199254740991))]])]

theorem wideBlock_issues : wideBlock.issues = [] := by
  decide +kernel

theorem wideBlock_fits : wideBlock.Fits := by
  simp [wideBlock, Description.Fits, Description.allFields, FieldKind.Fits]

theorem outcome_save_wideBlock :
    (outcome ((Call.save "p" wideBlock firstHour).on (fileStore "library.json")) .empty).1 =
      .ok (.saved ⟨"p", wideBlock.code, firstHour, false⟩) :=
  rfl

/-- It is saved after another description was, and another one is removed later. -/
theorem description_returned_wideBlock : ∃ receipt saved,
    outcome ((Call.save "p" wideBlock firstHour).on (fileStore "library.json")) .empty =
      (.ok (.saved receipt), saved) ∧
    Returned "library.json"
      (serve (fileStore "library.json") [.save "q" (emptyBlock "b") firstHour, .remove "q"] saved).2
      receipt.id wideBlock
      (1 + (serve (fileStore "library.json")
        [.save "q" (emptyBlock "b") firstHour, .remove "q"] saved).1.countP Reply.changes) := by
  have fits : ∀ brought ∈ List.filterMap Call.block?
      ([] ++ .save "p" wideBlock firstHour :: [.save "q" (emptyBlock "b") firstHour, .remove "q"]),
      brought.Fits := by
    have memo : (emptyBlock "b").Fits := by
      simp [emptyBlock, Description.Fits, Description.allFields]
    simpa [Call.block?] using ⟨wideBlock_fits, memo⟩
  obtain ⟨receipt, saved, answered, returned⟩ := description_returned vacant_empty []
    [.save "q" (emptyBlock "b") firstHour, .remove "q"] "p" firstHour wideBlock_issues fits
  have known := (congrArg Prod.fst answered).symm.trans outcome_save_wideBlock
  obtain rfl := Reply.saved.inj (Except.ok.inj known)
  exact ⟨_, saved, answered, returned (by simp [Call.Spares, emptyBlock, wideBlock])⟩

/-- Its greatest position is read as another number, although the description was accepted. -/
theorem description_wideBlock_ne :
    Description.ofJsonText wideValue.prettyText = .ok wideBlock ∧
    ∃ receipt saved,
      outcome ((Call.save "p" wideBlock firstHour).on (fileStore "library.json")) .empty =
        (.ok (.saved receipt), saved) ∧
      (outcome ((Call.description receipt.id).on (fileStore "library.json")) saved).1 ≠
        .ok (.described wideBlock) := by
  constructor
  · have read : readText (wideValue.prettyAt 0) (Block.readDescription .text) = .ok wideBlock := by
      decide +kernel
    rw [Description.ofJsonText, Value.prettyText, String.toList_ofList, read]
    show wideBlock.accepted = _
    rw [Description.accepted, wideBlock_issues]
    rfl
  · have start : Represents "library.json" .empty .empty := .inl ⟨vacant_empty, rfl⟩
    obtain ⟨receipt, saved, answered, retained⟩ :=
      start.outcome_save Table.sound_empty "p" wideBlock_fits firstHour
    refine ⟨receipt, saved, answered, fun same => ?_⟩
    have kept := (retained.returned wideBlock_issues wideBlock_fits).unchanged_iff.mp same
    have differs : Binary64.reread (.ofInt 9007199254740991) ≠ .ofInt 9007199254740991 := by
      decide +kernel
    have among : Binary64.ofInt 9007199254740991 ∈ wideBlock.numbers := by decide +kernel
    have comesThrough := (kept _ among).2
    rw [Function.iterate_one] at comesThrough
    exact differs comesThrough

end BlockForge.Library
