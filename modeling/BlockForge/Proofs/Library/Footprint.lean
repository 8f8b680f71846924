/-
# Requests that do not meet

A request looks at few items of a table and changes at most one. What it depends on is its
footprint: the identifiers that it names, finds or draws, and the codes that the items concerned
have before and after it. Two requests whose footprints have nothing in common do not meet. Each of
them is answered as if the other one had not been carried out, whichever comes first, and the same
items are left behind; only their order tells which one came last.

What a request does is told by the items that it finds. So it does the same on two tables that have
the same items in its footprint, and a request that does not meet it changes none of these.
-/

import BlockForge.Proofs.Library.Answers
import BlockForge.Proofs.Library.Calls

namespace BlockForge.Library

open BlockForge.Files

namespace Request

/-- What a table in memory replies to a request, and the table that it leaves behind. -/
def carryOut (request : Request) (table : Table) : Except Failure Reply × Table :=
  outcome (request.call.on memoryStore) table

end Request

/-! ## Effects -/

/-- What becomes of a table: it stays, or one item is written or taken out. -/
inductive Effect where
  | none
  | written (item : Item)
  | erased (id : String)

namespace Effect

def apply (table : Table) : Effect → Table
  | none => table
  | written item => table.written item
  | erased id => table.erase id

/-- The identifier of the item that is written or taken out. -/
def id? : Effect → Option String
  | none => Option.none
  | written item => some item.id
  | erased id => some id

/-- An item comes in or goes. -/
structure Changes (effect : Effect) (table : Table) (item : Item) : Prop where
  id : effect.id? = some item.id
  known : item ∈ table.items ∨ effect = .written item

end Effect

namespace Table

variable {table : Table}

theorem Coherent.mem_items_erase_iff (coherent : table.Coherent) {key : String} {item : Item} :
    item ∈ (table.erase key).items ↔ item ∈ table.items ∧ item.id ≠ key := by
  constructor
  · intro held
    obtain ⟨entry, kept, rfl⟩ := List.mem_map.mp held
    obtain ⟨among, differs⟩ := List.mem_filter.mp kept
    rw [← coherent.keyed entry among]
    exact ⟨List.mem_map_of_mem among, bne_iff_ne.mp differs⟩
  · rintro ⟨held, differs⟩
    obtain ⟨entry, among, rfl⟩ := List.mem_map.mp held
    rw [← coherent.keyed entry among] at differs
    exact List.mem_map_of_mem (List.mem_filter.mpr ⟨among, bne_iff_ne.mpr differs⟩)

theorem erase_comm (table : Table) (one other : String) :
    (table.erase one).erase other = (table.erase other).erase one := by
  simp only [erase, List.filter_filter, Bool.and_comm]

theorem erase_written {item : Item} {key : String} (other : item.id ≠ key) :
    (table.written item).erase key = (table.erase key).written item := by
  rw [written, written, erase_comm]
  simp [erase, other]

/-- Of two items that are written, the one that is written last stands last. -/
theorem entries_written_written {first second : Item} (other : first.id ≠ second.id) :
    ((table.written first).written second).entries =
      ((table.erase second.id).erase first.id).entries ++
        [(first.id, first), (second.id, second)] := by
  rw [written, erase_written other, written, List.append_assoc]
  rfl

theorem written_written_perm {first second : Item} (other : first.id ≠ second.id) :
    ((table.written first).written second).entries.Perm
      ((table.written second).written first).entries := by
  rw [entries_written_written other, entries_written_written other.symm, erase_comm]
  apply List.Perm.append_left
  exact List.Perm.swap _ _ []

end Table

namespace Effect

variable {table : Table} {effect : Effect}

/-- An item that neither comes in nor goes is there exactly if it was. -/
theorem mem_items_apply_iff (coherent : table.Coherent) {item : Item}
    (unchanged : ¬ effect.Changes table item) :
    item ∈ (effect.apply table).items ↔ item ∈ table.items := by
  cases effect with
  | none => exact Iff.rfl
  | written new =>
      have differs : item ≠ new := by
        rintro rfl
        exact unchanged ⟨rfl, .inr rfl⟩
      have stays (held : item ∈ table.items) : item.id ≠ new.id := by
        intro same
        exact unchanged ⟨congrArg some same.symm, .inl held⟩
      rw [apply, Table.items_written, List.mem_append, List.mem_singleton, or_iff_left differs,
        coherent.mem_items_erase_iff]
      exact and_iff_left_of_imp stays
  | erased id =>
      have stays (held : item ∈ table.items) : item.id ≠ id := by
        intro same
        exact unchanged ⟨congrArg some same.symm, .inl held⟩
      rw [apply, coherent.mem_items_erase_iff]
      exact and_iff_left_of_imp stays

/-- Effects on items of different identifiers leave the same items behind in either order. -/
theorem apply_perm {first second : Effect}
    (apart : ∀ id, first.id? = some id → second.id? ≠ some id) (table : Table) :
    (second.apply (first.apply table)).entries.Perm (first.apply (second.apply table)).entries := by
  cases first with
  | none => exact List.Perm.refl _
  | written new =>
      have other := apart new.id rfl
      cases second with
      | none => exact List.Perm.refl _
      | written newer =>
          apply Table.written_written_perm
          intro same
          exact other (congrArg some same.symm)
      | erased id =>
          have differs : new.id ≠ id := by
            rintro rfl
            exact other rfl
          rw [apply, apply, apply, apply, Table.erase_written differs]
  | erased id =>
      have other := apart id rfl
      cases second with
      | none => exact List.Perm.refl _
      | written new =>
          have differs : new.id ≠ id := by
            rintro rfl
            exact other rfl
          rw [apply, apply, apply, apply, Table.erase_written differs]
      | erased later => rw [apply, apply, apply, apply, Table.erase_comm]

end Effect

/-! ## What a request does -/

namespace Request

/-- The reply to a request and its effect, told by the items that it finds. -/
inductive Does (table : Table) : Request → Except Failure Reply → Effect → Prop where
  | savesOver {old : Item} {block : Description} (held : old ∈ table.items)
      (sameCode : old.code = block.code) (fresh : String) (now : Timestamp) :
      Does table (.save fresh block now) (.ok (.saved ((old.replace block now).receipt true)))
        (.written (old.replace block now))
  | savesNew {fresh : String} {block : Description}
      (absent : ∀ item ∈ table.items, item.code ≠ block.code)
      (unused : ∀ item ∈ table.items, item.id ≠ fresh) (now : Timestamp) :
      Does table (.save fresh block now) (.ok (.saved ((Item.make fresh block now).receipt false)))
        (.written (Item.make fresh block now))
  | overwritesNone {key : String} (absent : ∀ item ∈ table.items, item.id ≠ key)
      (block : Description) (now : Timestamp) :
      Does table (.overwrite key block now) (.error (.notFound key)) .none
  | overwritesTaken {old owner : Item} {block : Description} (held : old ∈ table.items)
      (heldToo : owner ∈ table.items) (sameCode : owner.code = block.code)
      (other : owner.id ≠ old.id) (now : Timestamp) :
      Does table (.overwrite old.id block now) (.error (.conflict block.code owner.id)) .none
  | overwrites {old : Item} {block : Description} (held : old ∈ table.items)
      (own : ∀ other ∈ table.items, other.code = block.code → other.id = old.id)
      (now : Timestamp) :
      Does table (.overwrite old.id block now) (.ok (.overwritten (old.replace block now)))
        (.written (old.replace block now))
  | removesNone {key : String} (absent : ∀ item ∈ table.items, item.id ≠ key) :
      Does table (.remove key) (.error (.notFound key)) .none
  | removes {old : Item} (held : old ∈ table.items) :
      Does table (.remove old.id) (.ok .removed) (.erased old.id)

variable {table : Table} {request : Request} {reply : Except Failure Reply} {effect : Effect}

/-- Every request ends in one of these ways. -/
theorem exists_does (coherent : table.Coherent) (unused : request.Fresh table) :
    ∃ reply effect, request.Does table reply effect := by
  cases request with
  | save fresh block now =>
      by_cases known : ∃ old ∈ table.items, old.code = block.code
      · obtain ⟨old, held, sameCode⟩ := known
        exact ⟨_, _, .savesOver held sameCode fresh now⟩
      · push Not at known
        have absent := Table.find?_eq_none_iff.mpr (unused known)
        exact ⟨_, _, .savesNew known (coherent.find?_eq_none_iff_id.mp absent) now⟩
  | overwrite key block now =>
      by_cases known : ∃ old ∈ table.items, old.id = key
      · obtain ⟨old, held, rfl⟩ := known
        by_cases taken : ∃ owner ∈ table.items, owner.code = block.code ∧ owner.id ≠ old.id
        · obtain ⟨owner, heldToo, sameCode, other⟩ := taken
          exact ⟨_, _, .overwritesTaken held heldToo sameCode other now⟩
        · push Not at taken
          exact ⟨_, _, .overwrites held taken now⟩
      · push Not at known
        exact ⟨_, _, .overwritesNone known block now⟩
  | remove key =>
      by_cases known : ∃ old ∈ table.items, old.id = key
      · obtain ⟨old, held, rfl⟩ := known
        exact ⟨_, _, .removes held⟩
      · push Not at known
        exact ⟨_, _, .removesNone known⟩

namespace Does

/-- A request is carried out in this way on a coherent table. -/
theorem carryOut_eq (coherent : table.Coherent) (does : request.Does table reply effect) :
    request.carryOut table = (reply, effect.apply table) := by
  rw [carryOut, outcome_on_memoryStore]
  cases does with
  | savesOver held sameCode fresh now =>
      simp only [call, Call.operation, Operation.perform, saving,
        coherent.upsert_eq_replace held sameCode]
      rfl
  | savesNew absent unused now =>
      have new := coherent.find?_eq_none_iff_id.mpr unused
      simp only [call, Call.operation, Operation.perform, saving, Table.upsert_eq_make absent new]
      rfl
  | overwritesNone absent block now =>
      have unknown := coherent.find?_eq_none_iff_id.mpr absent
      simp only [call, Call.operation, Operation.perform, updating,
        Table.update_eq_notFound unknown]
      rfl
  | overwritesTaken held heldToo sameCode other now =>
      have found := coherent.find?_id held
      simp only [call, Call.operation, Operation.perform, updating,
        coherent.update_eq_conflict found heldToo sameCode other]
      rfl
  | overwrites held own now =>
      have found := coherent.find?_id held
      simp only [call, Call.operation, Operation.perform, updating,
        coherent.update_eq_replace found own]
      rfl
  | removesNone absent =>
      have unknown := coherent.find?_eq_none_iff_id.mpr absent
      simp only [call, Call.operation, Operation.perform, deleting,
        Table.delete_eq_notFound unknown]
      rfl
  | removes held =>
      have found := coherent.find?_id held
      simp only [call, Call.operation, Operation.perform, deleting, Table.delete_eq_erase found]
      rfl

/-- The table stays coherent. -/
theorem coherent_apply (coherent : table.Coherent) (does : request.Does table reply effect) :
    (effect.apply table).Coherent := by
  cases does with
  | savesOver held sameCode fresh now =>
      exact coherent.written ((Writing.ofCode held sameCode fresh now).own coherent)
  | savesNew absent unused now =>
      exact coherent.written ((Writing.new absent _ now).own coherent)
  | overwrites held own now =>
      exact coherent.written ((Writing.ofKey held own now).own coherent)
  | removes held => exact coherent.erase _
  | overwritesNone | overwritesTaken | removesNone => exact coherent

end Does

/-! ## Footprints -/

/-- A request names an identifier, or it finds or draws it. -/
inductive Touches (table : Table) : Request → String → Prop where
  | savedOver {old : Item} {block : Description} (held : old ∈ table.items)
      (sameCode : old.code = block.code) (fresh : String) (now : Timestamp) :
      Touches table (.save fresh block now) old.id
  | drawn {block : Description} (absent : ∀ item ∈ table.items, item.code ≠ block.code)
      (fresh : String) (now : Timestamp) : Touches table (.save fresh block now) fresh
  | overwritten (key : String) (block : Description) (now : Timestamp) :
      Touches table (.overwrite key block now) key
  /-- If the item is there, it also finds the one of the code. -/
  | owner {key : String} {old owner : Item} {block : Description} (held : old ∈ table.items)
      (known : old.id = key) (heldToo : owner ∈ table.items) (sameCode : owner.code = block.code)
      (now : Timestamp) : Touches table (.overwrite key block now) owner.id
  | removed (key : String) : Touches table (.remove key) key

/-- An item that a request is concerned with has a code before or after it. -/
inductive Uses (table : Table) : Request → String → Prop where
  | saved (fresh : String) (block : Description) (now : Timestamp) :
      Uses table (.save fresh block now) block.code
  | overwritten {key : String} {old : Item} (held : old ∈ table.items) (known : old.id = key)
      (block : Description) (now : Timestamp) : Uses table (.overwrite key block now) old.code
  | given {key : String} {old : Item} (held : old ∈ table.items) (known : old.id = key)
      (block : Description) (now : Timestamp) : Uses table (.overwrite key block now) block.code
  | removed {key : String} {old : Item} (held : old ∈ table.items) (known : old.id = key) :
      Uses table (.remove key) old.code

/-- Two requests have no identifier and no code in common. -/
structure Apart (table : Table) (first second : Request) : Prop where
  ids : ∀ id, first.Touches table id → ¬ second.Touches table id
  codes : ∀ code, first.Uses table code → ¬ second.Uses table code

theorem Apart.symm {first second : Request} (apart : Apart table first second) :
    Apart table second first where
  ids id here there := apart.ids id there here
  codes code here there := apart.codes code there here

namespace Does

/-- The item that is written or taken out is in the footprint. -/
theorem touches (does : request.Does table reply effect) {id : String}
    (acts : effect.id? = some id) : request.Touches table id := by
  cases does with
  | savesOver held sameCode fresh now =>
      cases acts
      exact .savedOver held sameCode fresh now
  | savesNew absent unused now =>
      cases acts
      exact .drawn absent _ now
  | overwrites held own now =>
      cases acts
      exact .overwritten _ _ now
  | removes held =>
      cases acts
      exact .removed _
  | overwritesNone | overwritesTaken | removesNone => cases acts

/-- So is its code. -/
theorem uses (coherent : table.Coherent) (does : request.Does table reply effect) {item : Item}
    (changes : effect.Changes table item) : request.Uses table item.code := by
  obtain ⟨acts, known⟩ := changes
  -- An item that was there is the one that the request has found, since it has its identifier.
  have only {old : Item} (held : old ∈ table.items) (same : old.id = item.id)
      (heldToo : item ∈ table.items) : item = old := by
    have found := coherent.find?_id heldToo
    rw [← same, coherent.find?_id held] at found
    exact (Option.some.inj found).symm
  cases does with
  | savesOver held sameCode fresh now =>
      rcases known with heldToo | new
      · rw [only held (Option.some.inj acts) heldToo, sameCode]
        exact .saved fresh _ now
      · cases new
        exact .saved fresh _ now
  | savesNew absent unused now =>
      rcases known with held | new
      · exact absurd (Option.some.inj acts).symm (unused item held)
      · cases new
        exact .saved _ _ now
  | overwrites held own now =>
      rcases known with heldToo | new
      · rw [only held (Option.some.inj acts) heldToo]
        exact .overwritten held rfl _ now
      · cases new
        exact .given held rfl _ now
  | removes held =>
      rcases known with heldToo | new
      · rw [only held (Option.some.inj acts) heldToo]
        exact .removed held rfl
      · cases new
  | overwritesNone | overwritesTaken | removesNone => cases acts

/-- A request does the same on a table that has the same items in its footprint. -/
theorem of_agree {other : Table} (does : request.Does table reply effect)
    (agree : ∀ item, request.Touches table item.id ∨ request.Uses table item.code →
      (item ∈ other.items ↔ item ∈ table.items)) : request.Does other reply effect := by
  cases does with
  | @savesOver old block held sameCode fresh now =>
      have touched := agree old (.inl (.savedOver held sameCode fresh now))
      exact .savesOver (touched.mpr held) sameCode fresh now
  | @savesNew fresh block absent unused now =>
      apply savesNew
      · intro item held same
        have used := agree item (.inr (same ▸ .saved fresh block now))
        exact absent item (used.mp held) same
      · intro item held same
        have touched := agree item (.inl (same ▸ .drawn absent fresh now))
        exact unused item (touched.mp held) same
  | @overwritesNone key absent block now =>
      apply overwritesNone
      rintro item held rfl
      have touched := agree item (.inl (.overwritten item.id block now))
      exact absent item (touched.mp held) rfl
  | @overwritesTaken old owner block held heldToo sameCode differs now =>
      have touched := agree old (.inl (.overwritten old.id block now))
      have found := agree owner (.inl (.owner held rfl heldToo sameCode now))
      exact .overwritesTaken (touched.mpr held) (found.mpr heldToo) sameCode differs now
  | @overwrites old block held own now =>
      have touched := agree old (.inl (.overwritten old.id block now))
      apply overwrites (touched.mpr held)
      intro item heldToo same
      have used := agree item (.inr (same ▸ .given held rfl block now))
      exact own item (used.mp heldToo) same
  | @removesNone key absent =>
      apply removesNone
      rintro item held rfl
      have touched := agree item (.inl (.removed item.id))
      exact absent item (touched.mp held) rfl
  | @removes old held =>
      have touched := agree old (.inl (.removed old.id))
      exact .removes (touched.mpr held)

/-- A request does the same after one that does not meet it. -/
theorem after {first second : Request} {replyFirst replySecond : Except Failure Reply}
    {effectFirst effectSecond : Effect} (coherent : table.Coherent)
    (doesFirst : first.Does table replyFirst effectFirst)
    (doesSecond : second.Does table replySecond effectSecond) (apart : Apart table first second) :
    second.Does (effectFirst.apply table) replySecond effectSecond := by
  apply doesSecond.of_agree
  intro item footprint
  apply Effect.mem_items_apply_iff coherent
  intro changes
  rcases footprint with touched | used
  · exact apart.ids item.id (doesFirst.touches changes.id) touched
  · exact apart.codes item.code (doesFirst.uses coherent changes) used

end Does

end Request

/-! ## Either order -/

/-- Two requests that do not meet on the table of a run are each answered in the same way,
whichever of them is carried out first, and the same entries are left behind. -/
theorem Run.apart_either_order {requests : List Request} {history : History}
    (run : Run requests history) {first second : Request} (unused : first.Fresh history.table)
    (unusedToo : second.Fresh history.table) (apart : Request.Apart history.table first second) :
    (first.carryOut (second.carryOut history.table).2).1 = (first.carryOut history.table).1 ∧
    (second.carryOut (first.carryOut history.table).2).1 = (second.carryOut history.table).1 ∧
    (second.carryOut (first.carryOut history.table).2).2.entries.Perm
      (first.carryOut (second.carryOut history.table).2).2.entries := by
  have coherent := run.coherent
  obtain ⟨replyFirst, effectFirst, doesFirst⟩ := Request.exists_does coherent unused
  obtain ⟨replySecond, effectSecond, doesSecond⟩ := Request.exists_does coherent unusedToo
  have secondLast := doesFirst.after coherent doesSecond apart
  have firstLast := doesSecond.after coherent doesFirst apart.symm
  rw [doesFirst.carryOut_eq coherent, doesSecond.carryOut_eq coherent,
    secondLast.carryOut_eq (doesFirst.coherent_apply coherent),
    firstLast.carryOut_eq (doesSecond.coherent_apply coherent)]
  refine ⟨rfl, rfl, Effect.apply_perm ?_ history.table⟩
  intro id acts actsToo
  exact apart.ids id (doesFirst.touches acts) (doesSecond.touches actsToo)

/-- What is left behind when two items are saved and the first one is renamed. -/
def renamedTable : Table := (saveTwoAndRename.foldl History.step .start).table

/-- Giving the first item another code and saving a third one do not meet. -/
theorem apart_renamedTable : Request.Apart renamedTable
    (.overwrite "p" (emptyBlock "a") secondHour) (.save "r" (emptyBlock "e") secondHour) := by
  have codes : ∀ item ∈ renamedTable.items,
      item.code ≠ "a" ∧ item.code ≠ "e" ∧ (item.id = "p" → item.code = "c") := by
    decide
  constructor
  · intro id here there
    have named : id = "p" := by
      cases here with
      | overwritten => rfl
      | owner held known heldToo sameCode now => exact absurd sameCode (codes _ heldToo).1
    have drawn : id = "r" := by
      cases there with
      | savedOver held sameCode fresh now => exact absurd sameCode (codes _ held).2.1
      | drawn => rfl
    exact absurd (named.symm.trans drawn) (by decide)
  · intro code here there
    have given : code = "c" ∨ code = "a" := by
      cases here with
      | overwritten held known block now => exact .inl ((codes _ held).2.2 known)
      | given => exact .inr rfl
    have saved : code = "e" := by
      cases there
      rfl
    rw [saved] at given
    exact absurd given (by decide)

theorem Run.apart_either_order_renamedTable :
    ((Request.overwrite "p" (emptyBlock "a") secondHour).carryOut
        ((Request.save "r" (emptyBlock "e") secondHour).carryOut renamedTable).2).1 =
      ((Request.overwrite "p" (emptyBlock "a") secondHour).carryOut renamedTable).1 ∧
    ((Request.save "r" (emptyBlock "e") secondHour).carryOut
        ((Request.overwrite "p" (emptyBlock "a") secondHour).carryOut renamedTable).2).1 =
      ((Request.save "r" (emptyBlock "e") secondHour).carryOut renamedTable).1 ∧
    ((Request.save "r" (emptyBlock "e") secondHour).carryOut
        ((Request.overwrite "p" (emptyBlock "a") secondHour).carryOut
          renamedTable).2).2.entries.Perm
      ((Request.overwrite "p" (emptyBlock "a") secondHour).carryOut
        ((Request.save "r" (emptyBlock "e") secondHour).carryOut renamedTable).2).2.entries := by
  have known : (Request.overwrite "p" (emptyBlock "a") secondHour).Fresh renamedTable := trivial
  have unused : (Request.save "r" (emptyBlock "e") secondHour).Fresh renamedTable :=
    fun _ => by decide
  exact Run.apart_either_order run_saveTwoAndRename known unused apart_renamedTable

end BlockForge.Library
