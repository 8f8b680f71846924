/-
# Texts of descriptions loaded again

A description is written as a text with its members in order, and the library shows it with the
members of every object in increasing order, after it was written and read for some rounds. Both
texts are loaded as the description with other finite numbers in its sliders: no string is changed,
whatever its characters, and nothing is left out.
-/

import BlockForge.Proofs.Library.Retention
import BlockForge.Work.Library

namespace BlockForge

open BlockForge.Files BlockForge.Json BlockForge.Library

/-- A description is another one with finite numbers in place of its numbers. -/
def Description.SameButNumbers (block other : Description) : Prop :=
  ∃ g, other = block.withFloats g ∧ other.numbers = block.numbers.map g ∧
    ∀ number ∈ other.numbers, number.isFinite

theorem Description.sameButNumbers_withFloats {block : Description} {g : Binary64 → Binary64}
    (finite : ∀ number ∈ block.numbers, number.isFinite)
    (keeps : ∀ x, (g x).isFinite = x.isFinite) : block.SameButNumbers (block.withFloats g) := by
  have numbers := numbers_withFloats (g := g) finite
  refine ⟨g, rfl, numbers, fun number held => ?_⟩
  rw [numbers] at held
  obtain ⟨before, there, rfl⟩ := List.mem_map.mp held
  rw [keeps, finite before there]

namespace Work

variable {path id : String} {tree : FileTree} {block : Description} {rounds : Nat}

/-- The text that is shown of a description is loaded with other numbers. -/
theorem ofJsonText_of_showBlock (retained : Retained path tree id block rounds)
    (valid : block.issues = []) (fits : block.Fits) :
    ∃ text, (outcome (showBlock (fileStore path) id) tree).1 = .ok [Report.plain text] ∧
      Description.ofJsonText text =
        .ok (block.withFloats (Binary64.reread ∘ Binary64.reread^[rounds])) := by
  obtain ⟨table, item, represents, found, stored⟩ := retained.item
  obtain ⟨after, answered, -⟩ := represents.outcome_query (·.get id)
  refine ⟨item.stored.prettyText, ?_, ?_⟩
  · rw [Table.get_of_find? found] at answered
    rw [showBlock]
    exact congrArg Prod.fst (outcome_bind_of_ok answered)
  · rw [stored,
      Description.ofJsonText_rearranged (rearranging_iterate_restored rounds) valid fits]

/-- What is shown of an item is loaded as a description, but for its numbers. -/
def Shows (path : String) (tree : FileTree) (id : String) (block : Description) : Prop :=
  ∃ text, (outcome (showBlock (fileStore path) id) tree).1 = .ok [Report.plain text] ∧
    ∃ loaded, Description.ofJsonText text = .ok loaded ∧ block.SameButNumbers loaded

/-- A description that breaks no rule and whose numbers are finite is loaded, but for its numbers,
from its text, and also from the text that a library in a file shows of it, whenever it was saved
there and whatever was done to other items since. Saving it always succeeds. -/
theorem texts_load (valid : block.issues = []) (fits : block.Fits)
    (finite : ∀ number ∈ block.numbers, number.isFinite) :
    (∃ loaded, Description.ofJsonText (block.text .json) = .ok loaded ∧
      block.SameButNumbers loaded) ∧
    ∀ path tree, Vacant path tree → ∀ before : List Call,
      (∀ other ∈ before.filterMap Call.block?, other.Fits) →
      (∀ fresh now, ∃ receipt saved, outcome ((Call.save fresh block now).on (fileStore path))
        (serve (fileStore path) before tree).2 = (.ok (.saved receipt), saved)) ∧
      ∀ (call : Call) (reply : Reply) (saved : FileTree), call.block? = some block →
        outcome (call.on (fileStore path)) (serve (fileStore path) before tree).2 =
          (.ok reply, saved) →
        ∃ id, reply.written? = some id ∧ ∀ later : List Call,
          (∀ other ∈ later.filterMap Call.block?, other.Fits) →
          (∀ call ∈ later, call.Spares id block.code) →
          Shows path (serve (fileStore path) later saved).2 id block := by
  refine ⟨?_, fun path tree vacant before fitsBefore => ?_⟩
  · exact ⟨_, Description.ofJsonText_text valid fits,
      Description.sameButNumbers_withFloats finite Binary64.isFinite_reread⟩
  · have start : Represents path tree .empty := .inl ⟨vacant, rfl⟩
    obtain ⟨-, opened, sound⟩ :=
      start.serve Table.sound_empty (Call.forall_brought_iff.mp fitsBefore)
    constructor
    · intro fresh now
      obtain ⟨receipt, saved, answered, -⟩ := opened.outcome_save sound fresh fits now
      exact ⟨receipt, saved, answered⟩
    · intro call reply saved brought answered
      obtain ⟨id, written, retained⟩ := opened.retained sound brought fits answered
      refine ⟨id, written, fun later fitsLater spares => ?_⟩
      have last := retained.serve spares (Call.forall_brought_iff.mp fitsLater)
      obtain ⟨text, shown, loaded⟩ := ofJsonText_of_showBlock last valid fits
      refine ⟨text, shown, _, loaded, Description.sameButNumbers_withFloats finite ?_⟩
      exact (rearranging_reread.comp (rearranging_iterate_restored _)).finite

/-- A block is saved, and then another one. -/
theorem texts_load_wideBlock :
    (∃ loaded, Description.ofJsonText (wideBlock.text .json) = .ok loaded ∧
      wideBlock.SameButNumbers loaded) ∧
    ∃ receipt saved, outcome ((Call.save "p" wideBlock firstHour).on (fileStore "library.json"))
        .empty = (.ok (.saved receipt), saved) ∧
      Shows "library.json"
        (serve (fileStore "library.json") [.save "q" (emptyBlock "b") firstHour] saved).2
        receipt.id wideBlock := by
  have finite : ∀ number ∈ wideBlock.numbers, number.isFinite := by decide +kernel
  obtain ⟨own, inFile⟩ := texts_load wideBlock_issues wideBlock_fits finite
  obtain ⟨saves, shows⟩ := inFile "library.json" .empty vacant_empty [] (by simp)
  obtain ⟨receipt, saved, answered⟩ := saves "p" firstHour
  obtain ⟨id, written, later⟩ := shows _ _ saved rfl answered
  obtain rfl := Option.some.inj written
  have known := (congrArg Prod.fst answered).symm.trans outcome_save_wideBlock
  obtain rfl := Reply.saved.inj (Except.ok.inj known)
  refine ⟨own, _, saved, answered, later [.save "q" (emptyBlock "b") firstHour] ?_ ?_⟩
  · simp [Call.block?, emptyBlock, Description.Fits, Description.allFields]
  · simp [Call.Spares, emptyBlock, wideBlock]

end Work

end BlockForge
