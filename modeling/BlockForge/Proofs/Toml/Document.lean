/-
# Documents read back

The text of a document is read as the same entries in another order, and tables inside it have their
entries in another order as well. A tree has the members of its objects in the order of their keys,
so the tree of what was read is the tree of what was written.
-/

import BlockForge.Proofs.Json.Settled
import BlockForge.Proofs.Toml.Draft
import BlockForge.Toml.Tree

namespace BlockForge.Toml

open BlockForge.Json (keysOf sortMembers)

/-! ## Expressions that fit -/

mutual

theorem Value.Fits.mono {levels more : Nat} (deeper : levels ≤ more) : {v : Value} →
    v.Fits levels → v.Fits more
  | .string _, _ => trivial
  | .integer _, _ => trivial
  | .float _, _ => trivial
  | .bool _, _ => trivial
  | .array _, fits => ⟨Nat.lt_of_lt_of_le fits.1 deeper,
    ItemsFit.mono (Nat.sub_le_sub_right deeper 1) fits.2⟩
  | .table _, fits => ⟨Nat.lt_of_lt_of_le fits.1 deeper, fits.2.1,
    EntriesFit.mono (Nat.sub_le_sub_right deeper 1) fits.2.2⟩

theorem ItemsFit.mono {levels more : Nat} (deeper : levels ≤ more) : {items : List Value} →
    ItemsFit levels items → ItemsFit more items
  | [], _ => trivial
  | _ :: _, fits => ⟨fits.1.mono deeper, ItemsFit.mono deeper fits.2⟩

theorem EntriesFit.mono {levels more : Nat} (deeper : levels ≤ more) :
    {entries : List (String × Value)} → EntriesFit levels entries → EntriesFit more entries
  | [], _ => trivial
  | (_, _) :: _, fits => ⟨fits.1.mono deeper, EntriesFit.mono deeper fits.2⟩

end

theorem entriesFit_iff {levels : Nat} {entries : Entries} :
    EntriesFit levels entries ↔ ∀ entry ∈ entries, entry.2.Fits levels := by
  induction entries with
  | nil => simp [EntriesFit]
  | cons entry rest ih => rw [EntriesFit, ih, List.forall_mem_cons]

theorem fits_assignments {levels : Nat} {entries : Entries} (fits : EntriesFit levels entries)
    (shallow : levels ≤ greatestDepth) : ∀ e ∈ assignments entries, e.Fits := by
  intro e held
  obtain ⟨entry, among, rfl⟩ := List.mem_map.mp held
  exact ⟨rfl, (entriesFit_iff.mp fits entry (List.mem_filter.mp among).1).mono shallow⟩

mutual

/-- Headers have no more keys than tables are nested. -/
theorem Value.fits_sections {way : List String} {key : String} : (v : Value) → {levels : Nat} →
    v.Fits levels → way.length + levels ≤ greatestDepth → ∀ e ∈ v.sections way key, e.Fits
  | .table entries, levels, fits, shallow => by
    intro e held
    have deep := fits.1
    rw [Value.sections, List.cons_append, List.mem_cons, List.mem_append] at held
    rcases held with rfl | assigned | inside
    · show way.length < greatestDepth
      omega
    · exact fits_assignments fits.2.2 (by omega) e assigned
    · have longer : (way ++ [key]).length = way.length + 1 := List.length_append
      exact fits_sectionsOf entries fits.2.2 (by omega) e inside
  | .array items, levels, fits, shallow => by
    rw [Value.sections]
    split
    · simp
    · exact fits_nextSections items fits.2 (by omega)
  | .string _, _, _, _ => by simp [Value.sections]
  | .integer _, _, _, _ => by simp [Value.sections]
  | .float _, _, _, _ => by simp [Value.sections]
  | .bool _, _, _, _ => by simp [Value.sections]

theorem fits_nextSections {way : List String} {key : String} : (items : List Value) →
    {levels : Nat} → ItemsFit levels items → way.length + levels ≤ greatestDepth →
    ∀ e ∈ nextSections way key items, e.Fits
  | [], _, _, _ => by simp [nextSections]
  | .table entries :: rest, levels, fits, shallow => by
    intro e held
    have deep := fits.1.1
    rw [nextSections, List.mem_append, List.cons_append, List.mem_cons, List.mem_append] at held
    rcases held with (rfl | assigned | inside) | later
    · show way.length < greatestDepth
      omega
    · exact fits_assignments fits.1.2.2 (by omega) e assigned
    · have longer : (way ++ [key]).length = way.length + 1 := List.length_append
      exact fits_sectionsOf entries fits.1.2.2 (by omega) e inside
    · exact fits_nextSections rest fits.2 shallow e later
  | .string _ :: rest, _, fits, shallow => fits_nextSections rest fits.2 shallow
  | .integer _ :: rest, _, fits, shallow => fits_nextSections rest fits.2 shallow
  | .float _ :: rest, _, fits, shallow => fits_nextSections rest fits.2 shallow
  | .bool _ :: rest, _, fits, shallow => fits_nextSections rest fits.2 shallow
  | .array _ :: rest, _, fits, shallow => fits_nextSections rest fits.2 shallow

theorem fits_sectionsOf {way : List String} : (entries : List (String × Value)) →
    {levels : Nat} → EntriesFit levels entries → way.length + levels ≤ greatestDepth →
    ∀ e ∈ sectionsOf way entries, e.Fits
  | [], _, _, _ => by simp [sectionsOf]
  | (key, v) :: rest, levels, fits, shallow => by
    intro e held
    rcases List.mem_append.mp held with first | later
    · exact v.fits_sections fits.1 shallow e first
    · exact fits_sectionsOf rest fits.2 shallow e later

end

theorem fits_expressionsOf {entries : Entries} (fits : EntriesFit greatestDepth entries) :
    ∀ e ∈ expressionsOf entries, e.Fits := by
  intro e held
  rcases List.mem_append.mp held with assigned | inside
  · exact fits_assignments fits (Nat.le_refl _) e assigned
  · exact fits_sectionsOf entries fits (by simp) e inside

/-! ## Trees of what was read -/

theorem nodeEntries_eq_map (entries : Entries) :
    nodeEntries entries = entries.map fun entry => (entry.1, entry.2.node) := by
  induction entries with
  | nil => rfl
  | cons entry rest ih => rw [nodeEntries, ih, List.map_cons]

theorem keysOf_nodeEntries (entries : Entries) : keysOf (nodeEntries entries) = keysOf entries := by
  rw [nodeEntries_eq_map, keysOf, List.map_map]
  rfl

theorem nodeEntries_append (front back : Entries) :
    nodeEntries (front ++ back) = nodeEntries front ++ nodeEntries back := by
  rw [nodeEntries_eq_map, nodeEntries_eq_map, nodeEntries_eq_map, List.map_append]

theorem finishedEntries_append (front back : DraftEntries) :
    finishedEntries (front ++ back) = finishedEntries front ++ finishedEntries back := by
  induction front with
  | nil => rfl
  | cons entry rest ih =>
      rw [List.cons_append, finishedEntries, ih]
      rfl

theorem finishedTables_append (front : List DraftEntries) (last : DraftEntries) :
    finishedTables (front ++ [last]) = finishedTables front ++ [.table (finishedEntries last)] := by
  induction front with
  | nil => rfl
  | cons entries rest ih => rw [List.cons_append, finishedTables, ih, finishedTables]; rfl

/-- Tables under one header have become a list of them. -/
theorem finishedEntries_tablesUnder (key : String) {done : List DraftEntries}
    (nonempty : done ≠ []) :
    finishedEntries (tablesUnder key done) = [(key, .array (finishedTables done))] := by
  rcases List.eq_nil_or_concat done with rfl | ⟨earlier, last, rfl⟩
  · exact absurd rfl nonempty
  · rw [List.concat_eq_append, tablesUnder_append, finishedTables_append]
    rfl

/-- The order of its entries does not matter to the tree of a table. -/
theorem node_table_eq_of_perm {entries others : Entries}
    (perm : (nodeEntries entries).Perm (nodeEntries others)) (distinct : (keysOf others).Nodup) :
    (Value.table entries).node = (Value.table others).node := by
  rw [Value.node, Value.node, Json.sortMembers_eq_of_perm perm (by rwa [keysOf_nodeEntries])]

/-- A table and what it adds up to have the same tree, if this holds of the tables inside it. -/
theorem node_draftOf_of_sections {entries : Entries} (distinct : (keysOf entries).Nodup)
    (sections : nodeEntries (finishedEntries (sectionDrafts entries)) =
      nodeEntries (sectionEntries entries)) :
    (Value.table (finishedEntries (draftOf entries))).node = (Value.table entries).node := by
  apply node_table_eq_of_perm ?_ distinct
  rw [draftOf, finishedEntries_append, finishedEntries_draftsOf, nodeEntries_append, sections,
    ← nodeEntries_append, nodeEntries_eq_map, nodeEntries_eq_map]
  exact (List.filter_append_perm (·.2.isInline) entries).map _

mutual

/-- What a value adds up to below its own header has the tree of the value. -/
theorem Value.node_drafts {key : String} : (v : Value) → {levels : Nat} → v.Fits levels →
    v.isInline = false → nodeEntries (finishedEntries (v.drafts key)) = [(key, v.node)]
  | .table entries, levels, fits, _ => by
    have same := node_draftOf_of_sections fits.2.1 (node_sectionDrafts entries fits.2.2)
    exact congrArg (fun node => [(key, node)]) same
  | .array items, levels, fits, sections => by
    obtain ⟨tables, nonempty⟩ := all_isTable_of_sections sections
    rw [Value.drafts, if_neg (by simp [sections]), finishedEntries_tablesUnder key nonempty,
      nodeEntries, Value.node, node_tableDrafts items fits.2 tables, Value.node]
    rfl

/-- What several tables add up to has their trees. -/
theorem node_tableDrafts : (items : List Value) → {levels : Nat} → ItemsFit levels items →
    items.all Value.isTable = true → nodeItems (finishedTables (tableDrafts items)) = nodeItems items
  | [], _, _, _ => rfl
  | .table entries :: rest, levels, fits, tables => by
    have same := node_draftOf_of_sections fits.1.2.1 (node_sectionDrafts entries fits.1.2.2)
    have others := node_tableDrafts rest fits.2 tables
    exact congrArg₂ (Json.Items.item 0) same others

/-- What the tables inside a table add up to has their trees, in their order. -/
theorem node_sectionDrafts : (entries : List (String × Value)) → {levels : Nat} →
    EntriesFit levels entries →
    nodeEntries (finishedEntries (sectionDrafts entries)) = nodeEntries (sectionEntries entries)
  | [], _, _ => rfl
  | (key, v) :: rest, levels, fits => by
    have others := node_sectionDrafts rest fits.2
    rw [sectionDrafts, finishedEntries_append, nodeEntries_append, others]
    by_cases isInline : v.isInline = true
    · have passed : sectionEntries ((key, v) :: rest) = sectionEntries rest :=
        List.filter_cons_of_neg (by simp [isInline])
      rw [v.drafts_of_isInline isInline, passed]
      rfl
    · have kept : sectionEntries ((key, v) :: rest) = (key, v) :: sectionEntries rest :=
        List.filter_cons_of_pos (by simp [isInline])
      rw [v.node_drafts fits.1 (by simpa using isInline), kept]
      rfl

end

/-- The text of a document is read as entries that have its tree. -/
theorem exists_readDocument?_documentChars {entries : Entries} (distinct : (keysOf entries).Nodup)
    (fits : EntriesFit greatestDepth entries) :
    ∃ read, readDocument? (documentChars entries) = some read ∧
      (Value.table read).node = (Value.table entries).node := by
  refine ⟨finishedEntries (draftOf entries), ?_,
    node_draftOf_of_sections distinct (node_sectionDrafts entries fits)⟩
  rw [documentChars, readDocument?_flatMap (fits_expressionsOf fits),
    addExpressions_expressionsOf distinct fits, Option.map_some]

end BlockForge.Toml
