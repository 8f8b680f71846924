/-
# Saved descriptions are checked before they are baked

The stored form of an item may have been changed by hand, so it is read and checked whenever the
description of the item is asked for. There are three ways in which this ends, and what is stored
decides which: nothing stands under the key; or the stored form is read as a description that
breaks no rule, and this description is the answer; or the stored form cannot be used, and what is
reported are the rules that were broken, or one issue at the input if it is not read at all.

Only in the second case something is baked, whichever store the item is in. Until then the one file
that may have come up is the empty one that a library in a file is locked with.
-/

import BlockForge.Proofs.Library.Loaded
import BlockForge.Proofs.Work.Bake
import BlockForge.Work.Library

namespace BlockForge.Library

open BlockForge.Files

variable {α : Type} {item : Item} {table : Table} {key path : String}

/-! ## Asking for a description -/

/-- The stored form of an item is read as a description, which may break rules. -/
def Item.Decodes (item : Item) (block : Description) : Prop :=
  Block.readDescription .stored (.ofValue item.stored) = .ok block

/-- What is reported of a stored form that cannot be used. -/
inductive Item.Reports (item : Item) : List Issue → Prop where
  | broken {block : Description} (decodes : item.Decodes block) (breaks : block.issues ≠ []) :
    item.Reports block.issues
  | unread {fault : Json.Fault}
    (refused : Block.readDescription .stored (.ofValue item.stored) = .error fault) :
    item.Reports [⟨[.key "input"], .unreadable (LoadError.mismatched fault.cause.text).message⟩]

theorem Item.Reports.ne_nil {issues : List Issue} (reports : item.Reports issues) : issues ≠ [] := by
  cases reports with
  | broken decodes breaks => exact breaks
  | unread refused => exact List.cons_ne_nil _ _

/-- An item gives its description or says why it cannot be used. -/
theorem Item.description_cases (item : Item) :
    (∃ block, item.description = .ok block ∧ item.Decodes block ∧ block.issues = []) ∨
      ∃ issues, item.description = .error (.invalidSaved item.id issues) ∧
        item.Reports issues := by
  rw [description, Description.ofValue]
  cases read : Block.readDescription .stored (.ofValue item.stored) with
  | error fault => exact .inr ⟨_, rfl, .unread read⟩
  | ok block =>
      dsimp only
      rw [Description.accepted]
      by_cases valid : block.issues = []
      · rw [if_pos (List.isEmpty_iff.mpr valid)]
        exact .inl ⟨block, rfl, read, valid⟩
      · rw [if_neg (by simpa using valid)]
        exact .inr ⟨block.issues, rfl, .broken read valid⟩

theorem Item.description_eq_ok_iff {block : Description} :
    item.description = .ok block ↔ item.Decodes block ∧ block.issues = [] := by
  constructor
  · intro given
    rcases item.description_cases with ⟨other, gives, decodes, valid⟩ | ⟨issues, fails, -⟩
    · obtain rfl := Except.ok.inj (gives.symm.trans given)
      exact ⟨decodes, valid⟩
    · rw [fails] at given
      cases given
  · rintro ⟨decodes, valid⟩
    rw [description, Description.ofValue, decodes]
    dsimp only
    rw [Description.accepted, valid]
    rfl

theorem Item.description_eq_error_iff {failure : Failure} : item.description = .error failure ↔
    ∃ issues, failure = .invalidSaved item.id issues ∧ item.Reports issues := by
  constructor
  · intro refused
    rcases item.description_cases with ⟨block, gives, -⟩ | ⟨issues, fails, reports⟩
    · rw [gives] at refused
      cases refused
    · exact ⟨issues, (Except.error.inj (fails.symm.trans refused)).symm, reports⟩
  · rintro ⟨issues, rfl, reports⟩
    cases reports with
    | broken decodes breaks =>
        rw [description, Description.ofValue, decodes]
        dsimp only
        rw [Description.accepted, if_neg (by simpa using breaks)]
    | unread refused => rw [description, Description.ofValue, refused]

namespace Table

/-- An answer to the question for the description under a key is the one that is due. -/
structure Describes (table : Table) (key : String) (answer : Except Failure Description) :
    Prop where
  missing : answer = .error (.notFound key) ↔ table.find? key = none
  usable : ∀ block, answer = .ok block ↔
    ∃ item, table.find? key = some item ∧ item.Decodes block ∧ block.issues = []
  unusable : ∀ id issues, answer = .error (.invalidSaved id issues) ↔
    ∃ item, table.find? key = some item ∧ item.id = id ∧ item.Reports issues
  only : answer = .error (.notFound key) ∨ (∃ block, answer = .ok block) ∨
    ∃ id issues, answer = .error (.invalidSaved id issues) ∧ issues ≠ []

theorem description_of_find? (found : table.find? key = some item) :
    table.description key = item.description := by
  rw [description, get, found]
  rfl

theorem description_eq_notFound (absent : table.find? key = none) :
    table.description key = .error (.notFound key) := by
  rw [description, get, absent]
  rfl

theorem describes (table : Table) (key : String) :
    table.Describes key (table.description key) := by
  cases found : table.find? key with
  | none =>
      have answer := description_eq_notFound found
      refine ⟨by simp [answer, found], fun block => ?_, fun id issues => ?_, .inl answer⟩
      · simp [answer, found]
      · simp [answer, found]
  | some item =>
      have answer := description_of_find? found
      refine ⟨?_, fun block => ?_, fun id issues => ?_, ?_⟩
      · simp [answer, found, Item.description_eq_error_iff]
      · simp [answer, found, Item.description_eq_ok_iff]
      · rw [answer, found, Item.description_eq_error_iff]
        constructor
        · rintro ⟨reported, same, reports⟩
          obtain ⟨rfl, rfl⟩ := Failure.invalidSaved.inj same
          exact ⟨item, rfl, rfl, reports⟩
        · rintro ⟨other, same, rfl, reports⟩
          obtain rfl := Option.some.inj same
          exact ⟨issues, rfl, reports⟩
      · rw [answer]
        rcases item.description_cases with ⟨block, gives, -⟩ | ⟨issues, fails, reports⟩
        · exact .inr (.inl ⟨block, gives⟩)
        · exact .inr (.inr ⟨item.id, issues, fails, reports.ne_nil⟩)

end Table

/-! ## Looking at a library in a file -/

/-- All that may have come up is an empty file at a path. -/
structure LooksOnly (path : String) (before after : FileTree) : Prop where
  alters : FileTree.AltersOnly [path] before after
  fresh : ∀ place, after.contentAt? place ≠ before.contentAt? place →
    before.contentAt? place = none ∧ after.contentAt? place = some (.text "")

theorem LooksOnly.refl (path : String) (tree : FileTree) : LooksOnly path tree tree :=
  ⟨.refl _ tree, fun _ differs => absurd rfl differs⟩

theorem looksOnly_lock (path : String) (tree : FileTree) :
    LooksOnly (lockPath path) tree (outcome (lock path) tree).2 := by
  cases touched : tree.touch (lockPath path) with
  | error fault =>
      rw [lock, outcome_atPath_of_error (Action.outcome_change_of_error touched)]
      exact .refl _ tree
  | ok after =>
      rw [lock, outcome_atPath_of_ok (Action.outcome_change_of_ok touched)]
      exact ⟨FileTree.altersOnly_of_touch touched, fun _ => FileTree.fresh_of_touch touched⟩

/-- A library that is there is locked, read, and then looked at. -/
theorem outcome_queryFile_of_there {tree : FileTree} (there : tree.isThere path = true)
    (query : Query α) : outcome (queryFile path query) tree =
      outcome ((lock path >>= fun _ => load path) >>= fun table => Action.take fun _ => query table)
        tree := by
  refine (outcome_bind_of_ok (Action.outcome_look _ tree)).trans ?_
  rw [there, if_pos rfl, bind_assoc]

/-- What is asked of a library in a file is asked of its table. -/
theorem outcome_queryFile_eq (path : String) (query : Query α) (tree : FileTree) :
    outcome (queryFile path query) tree =
      ((outcome (queryFile path .ok) tree).1 >>= query, (outcome (queryFile path .ok) tree).2) := by
  cases there : tree.isThere path with
  | false =>
      rw [outcome_queryFile_of_absent there, outcome_queryFile_of_absent there]
      rfl
  | true =>
      rw [outcome_queryFile_of_there there, outcome_queryFile_of_there there]
      cases opened : outcome (lock path >>= fun _ => load path) tree with
      | mk result after =>
          cases result with
          | error failure =>
              rw [outcome_bind_of_error opened, outcome_bind_of_error opened]
              rfl
          | ok table =>
              rw [outcome_bind_of_ok opened, outcome_bind_of_ok opened, Action.outcome_take,
                Action.outcome_take]
              rfl

theorem looksOnly_queryFile (path : String) (query : Query α) (tree : FileTree) :
    LooksOnly (lockPath path) tree (outcome (queryFile path query) tree).2 := by
  cases there : tree.isThere path with
  | false =>
      rw [outcome_queryFile_of_absent there]
      exact .refl _ tree
  | true =>
      have locking := looksOnly_lock path tree
      rw [outcome_queryFile_of_there there, bind_assoc]
      cases locked : outcome (lock path) tree with
      | mk result between =>
          rw [locked] at locking
          cases result with
          | error failure =>
              rw [outcome_bind_of_error locked]
              exact locking
          | ok nothing =>
              rw [outcome_bind_of_ok locked]
              have loaded := outcome_load path between
              cases read : documentTable path between with
              | error failure =>
                  rw [read] at loaded
                  rw [outcome_bind_of_error loaded]
                  exact locking
              | ok table =>
                  rw [read] at loaded
                  rw [outcome_bind_of_ok loaded, Action.outcome_take]
                  exact locking

end BlockForge.Library

namespace BlockForge.Work

open BlockForge.Files BlockForge.Generate BlockForge.Library

variable {σ : Type} {block : Description}

/-! ## Baking -/

/-- What is baked of an answer to the question for a description: nothing, or an archive. -/
def archiving (directory : String) (answer : Except Failure Description) :
    Except Failure (Action BakeFailure BakeReport) :=
  answer.map (bake · .archive directory)

/-- An archive is baked once its description is known. -/
theorem outcome_bakeSaved {store : Store fun α => ExceptT Failure (StateM σ) α} {key : String}
    {state after : σ} {answer : Except Failure Description}
    (asked : outcome (savedBlock store key) state = (answer, after)) (directory : String) :
    outcome (bakeSaved store key directory) state = (archiving directory answer, after) := by
  rw [bakeSaved]
  cases answer with
  | error failure => exact outcome_bind_of_error asked
  | ok block => exact outcome_bind_of_ok asked

theorem outcome_savedBlock_memoryStore (table : Table) (key : String) :
    outcome (savedBlock memoryStore key) table = (table.description key, table) := by
  refine (outcome_bind_of_ok rfl).trans ?_
  dsimp only
  cases table.description key <;> rfl

/-- For every table and every key, the answer to the question for a description is the one that is
due, and it is the same from a table in memory and from a library in a file that holds the table.
An archive is only baked of a description that breaks no rule, and then of exactly its files. A
library that cannot be read gives nothing to bake. -/
theorem bakeSaved_checks (key directory : String) :
    (∀ table : Table, table.Describes key (table.description key) ∧
      outcome (savedBlock memoryStore key) table = (table.description key, table) ∧
      outcome (bakeSaved memoryStore key directory) table =
        (archiving directory (table.description key), table)) ∧
    (∀ path tree, ∃ after, LooksOnly (lockPath path) tree after ∧
      ((∃ table, outcome (queryFile path .ok) tree = (.ok table, after) ∧
        outcome (savedBlock (fileStore path) key) tree = (table.description key, after) ∧
        outcome (bakeSaved (fileStore path) key directory) tree =
          (archiving directory (table.description key), after)) ∨
      ∃ failure, outcome (queryFile path .ok) tree = (.error failure, after) ∧
        outcome (bakeSaved (fileStore path) key directory) tree = (.error failure, after))) ∧
    ∀ (table : Table) (block : Description), table.description key = .ok block →
      block.issues = [] ∧ ∀ tree, BakesWhole block directory tree := by
  refine ⟨fun table => ⟨table.describes key, ?_, ?_⟩, fun path tree => ?_, ?_⟩
  · exact outcome_savedBlock_memoryStore table key
  · exact outcome_bakeSaved (outcome_savedBlock_memoryStore table key) directory
  · have asked : outcome (savedBlock (fileStore path) key) tree = _ :=
      outcome_queryFile_eq path (·.description key) tree
    have looks := looksOnly_queryFile path .ok tree
    cases looked : outcome (queryFile path .ok) tree with
    | mk result after =>
        rw [looked] at asked looks
        refine ⟨after, looks, ?_⟩
        cases result with
        | ok table => exact .inl ⟨table, rfl, asked, outcome_bakeSaved asked directory⟩
        | error failure => exact .inr ⟨failure, rfl, outcome_bakeSaved asked directory⟩
  · intro table block given
    obtain ⟨item, -, -, valid⟩ := ((table.describes key).usable block).mp given
    exact ⟨valid, bakesWhole valid directory⟩

open Table (memoBlock)

/-- A library in which one item can be baked and two can not. -/
def tamperedTable : Table :=
  ⟨[("a", Item.make "a" (memoBlock "cpb_memo") firstHour),
    ("b", Item.make "b" (emptyBlock "cpb_memo") firstHour),
    ("c", { Item.make "x" (memoBlock "cpb_memo") firstHour with stored := .null })]⟩

/-- One item is baked, one breaks a rule, and one is not read and told of by its identifier. -/
theorem bakeSaved_checks_tamperedTable :
    (tamperedTable.description "a" = .ok (memoBlock "cpb_memo") ∧
      ∃ after, outcome (bake (memoBlock "cpb_memo") .archive "out") .empty =
        (.ok ⟨"Memo", "cpb_memo", [], .archived "out/memo.zip"⟩, after) ∧
        Archived "out/memo.zip" (namedTexts (memoBlock "cpb_memo")) .empty after) ∧
    tamperedTable.description "b" =
      .error (.invalidSaved "b" [⟨[.key "description"], .aboutMissing⟩]) ∧
    ∃ message, tamperedTable.description "c" =
      .error (.invalidSaved "x" [⟨[.key "input"], .unreadable message⟩]) := by
  refine ⟨?_, ?_, ?_⟩
  · have decodes : (Item.make "a" (memoBlock "cpb_memo") firstHour).Decodes
        (memoBlock "cpb_memo") := rfl
    have valid : (memoBlock "cpb_memo").issues = [] := by decide +kernel
    obtain ⟨tables, -, bakes⟩ := bakeSaved_checks "a" "out"
    have given := ((tables tamperedTable).1.usable _).mpr ⟨_, rfl, decodes, valid⟩
    refine ⟨given, ?_⟩
    have path : archivePath (memoBlock "cpb_memo") "out" = "out/memo.zip" := by decide +kernel
    obtain ⟨-, whole⟩ := bakes tamperedTable (memoBlock "cpb_memo") given
    rcases whole .empty with ⟨after, baked, archived⟩ | ⟨fault, after, failed, -⟩
    · rw [path] at baked archived
      exact ⟨after, baked, archived⟩
    · have done : (outcome (bake (memoBlock "cpb_memo") .archive "out") .empty).1.isOk := by
        decide +kernel
      rw [failed] at done
      cases done
  · have decodes : (Item.make "b" (emptyBlock "cpb_memo") firstHour).Decodes
        (emptyBlock "cpb_memo") := rfl
    have breaks : (emptyBlock "cpb_memo").issues = [⟨[.key "description"], .aboutMissing⟩] := by
      decide +kernel
    have reports := Item.Reports.broken decodes (by simp [breaks])
    rw [breaks] at reports
    obtain ⟨tables, -⟩ := bakeSaved_checks "b" "out"
    exact ((tables tamperedTable).1.unusable "b" _).mpr ⟨_, rfl, rfl, reports⟩
  · obtain ⟨tables, -⟩ := bakeSaved_checks "c" "out"
    exact ⟨_, ((tables tamperedTable).1.unusable "x" _).mpr ⟨_, rfl, rfl, .unread rfl⟩⟩

end BlockForge.Work
