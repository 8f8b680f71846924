/-
# Documents of a library read back

The document of a library is written from its table and read as a table again. Everything comes
back as it was, keys and the order of the items included, except that each stored description is
now the stored form of what its text is read as: its doubles may have changed.
-/

import BlockForge.Library.Document
import BlockForge.Proofs.Block.Rereading
import BlockForge.Proofs.Json.Record
import BlockForge.Proofs.Library.Table

namespace BlockForge.Library

open BlockForge.Json

/-! ## Items -/

namespace Item

/-- An item whose description has been written and read. -/
def reread (item : Item) : Item := { item with stored := item.stored.reread.canonical }

theorem names_nodup : shape.names.Nodup := by decide

/-- An item is read from its value after a change of this value. -/
theorem read_changed {g : Binary64 → Binary64} {f : Value → Value} (rearranging : Rearranging g f)
    {origin : Origin} (item : Item) (admits : origin.Admits item.value.depth) :
    read origin (.ofValue (f item.value)) =
      .ok { item with stored := (f item.stored).canonical } := by
  rw [value] at admits ⊢
  rw [read, Shape.read_changed rearranging names_nodup item.toRow admits (Node.holds_ofValue _)]
  rfl

/-- The description of an item can be written and read. -/
def Storable (item : Item) : Prop := Block.Sized 6 item.stored

theorem Storable.sized {item : Item} (storable : item.Storable) : Block.Sized 7 item.value := by
  apply Block.sized_object
  intro member held
  simp only [shape, toRow, Shape.members, Column.write, List.mem_cons, List.not_mem_nil,
    or_false] at held
  rcases held with rfl | rfl | rfl | rfl | rfl | rfl | rfl | rfl | rfl | rfl | rfl | rfl
  case inr.inr.inr.inr.inr.inr.inr.inr.inr.inl => exact storable
  all_goals exact ⟨trivial, Nat.zero_le 6⟩

end Item

/-! ## Tables -/

namespace Table

/-- A table whose descriptions have been written and read. -/
def reread (table : Table) : Table :=
  ⟨table.entries.map fun entry => (entry.1, entry.2.reread)⟩

/-- The descriptions of a table can be written and read. -/
def Storable (table : Table) : Prop := ∀ item ∈ table.items, item.Storable

def values (table : Table) : List (String × Value) :=
  table.entries.map fun entry => (entry.1, entry.2.value)

variable {table : Table}

theorem Storable.sized (storable : table.Storable) : Block.Sized 9 (documentValue table) := by
  have items : Block.Sized 8 (.object table.values) := by
    apply Block.sized_object
    intro member held
    obtain ⟨entry, among, rfl⟩ := List.mem_map.mp held
    exact (storable entry.2 (List.mem_map_of_mem among)).sized
  apply Block.sized_object
  intro member held
  simp only [List.mem_cons, List.not_mem_nil, or_false] at held
  rcases held with rfl | rfl
  · exact ⟨(by decide : documentVersion ≤ greatestUnsigned64), Nat.zero_le 8⟩
  · exact items

/-- Items of new keys are put at the end in their order. -/
theorem readItems_eq (entries : List (String × Item)) (before : Table)
    (distinct : (before.keys ++ entries.map (·.1)).Nodup) :
    readItems before (mapMembers Value.reread (entries.map fun entry => (entry.1, entry.2.value))) =
      .ok ⟨before.entries ++ entries.map fun entry => (entry.1, entry.2.reread)⟩ := by
  induction entries generalizing before with
  | nil =>
      rw [List.map_nil, List.map_nil, List.append_nil]
      rfl
  | cons entry rest ih =>
      obtain ⟨key, item⟩ := entry
      have read : Item.read .buffered (.ofValue item.value.reread) = .ok item.reread :=
        item.read_changed rearranging_reread (Origin.admits_of_unbounded rfl _)
      have absent : before.find? key = none := by
        rw [find?_eq_none_iff]
        intro there
        exact (List.nodup_append.mp distinct).2.2 key there key List.mem_cons_self rfl
      have inserted : before.insert key item.reread = ⟨before.entries ++ [(key, item.reread)]⟩ := by
        rw [insert, absent]
        rfl
      have onward := ih ⟨before.entries ++ [(key, item.reread)]⟩ (by
        simpa [keys] using distinct)
      rw [List.append_assoc] at onward
      show (do
        let found ← Item.read .buffered (.ofValue item.value.reread)
        readItems (before.insert key found) _) = _
      rw [read]
      show readItems (before.insert key item.reread) _ = _
      rw [inserted, onward]
      rfl

/-! ## Documents -/

def knownDocument (done : List (String × Value)) : DocumentDraft where
  version := slot done "version" documentVersion
  held := (done.filter (·.1 != "version")).reverse

theorem reread_documentValue (table : Table) : (documentValue table).reread =
    .object [("version", .number (.unsigned documentVersion)),
      ("items", .object (mapMembers Value.reread table.values))] := by
  rw [documentValue, Value.reread, Value.withFloats, membersWithFloats_eq_map]
  show Value.object [_, ("items", .object (membersWithFloats Binary64.reread table.values))] = _
  rw [membersWithFloats_eq_map]
  rfl

theorem readVersion_eq {node : Node}
    (holds : node.Holds (.number (.unsigned documentVersion))) :
    readVersion node = .ok documentVersion := by
  obtain ⟨scalar, stop, rfl, value⟩ := holds.scalar (by simp) (by simp)
  cases scalar <;> cases value
  rfl

theorem readTable_eq (distinct : table.keys.Nodup) :
    readTable [("items", .object (mapMembers Value.reread table.values))] = .ok table.reread := by
  have items := readItems_eq table.entries .empty distinct
  show (readItems .empty (mapMembers Value.reread table.values) >>= _) = _
  rw [values, items]
  rfl

/-- A table is read from its document as it is after its descriptions have been written and
read. -/
theorem tableOfText_documentText (distinct : table.keys.Nodup) (storable : table.Storable) :
    tableOfText (documentText table) = .ok table.reread := by
  obtain ⟨inRange, shallow⟩ := storable.sized
  obtain ⟨holds, ends⟩ := Document.ofText_prettyAt inRange
  have deep := Nat.le_trans (rearranging_reread.depth (documentValue table)) shallow
  rw [reread_documentValue] at holds deep
  obtain ⟨start, members, root, hold⟩ := holds.object
  obtain ⟨inner, entered, enough, -⟩ :=
    Origin.Admits.enter (Origin.admits_text (by decide : 8 + 1 < 128)) start
  have takes (done : List (String × Value)) (key : String) (v : Value) (standing : Nat)
      (node : Node) (held : (key, v) ∈ [("version", Value.number (.unsigned documentVersion)),
        ("items", .object (mapMembers Value.reread table.values))]) (fresh : key ∉ keysOf done)
      (holds : node.Holds v) :
      (knownDocument done).take inner key standing node =
        .ok (knownDocument (done ++ [(key, v)])) := by
    have shallow := depthOfMembers_le_iff.mp (Nat.le_of_succ_le_succ deep) (key, v) held
    simp only [List.mem_cons, Prod.mk.injEq, List.not_mem_nil, or_false] at held
    rcases held with ⟨rfl, rfl⟩ | ⟨rfl, rfl⟩
    · simp [DocumentDraft.take, knownDocument, slot_of_notMem fresh, slot_append,
        Block.fill_none (readVersion_eq holds)]
    · simp [DocumentDraft.take, knownDocument, slot_append, holds.value (enough.mono shallow)]
  obtain ⟨stop, walked⟩ := hold.fold knownDocument takes (by simp)
  have read : readDocument .text (Document.ofText ((documentValue table).prettyAt 0)).root =
      .ok table.reread := by
    rw [root, readDocument, Node.mapOnly, entered]
    show (members.fold (DocumentDraft.take inner) (knownDocument []) >>= _) = _
    rw [walked]
    show (readTable [("items", .object (mapMembers Value.reread table.values))]).mapError _ = _
    rw [readTable_eq distinct]
    rfl
  rw [tableOfText, readText, documentText, Value.prettyText, String.toList_ofList, read, ends]
  rfl

end Table

end BlockForge.Library
