/-
# What a written document adds up to

A document is written table by table, each below its header, so everything that a reader adds goes
to the end of the table that was declared last, or to the end of one around it. Such a table is a
place in the draft: what is under the path of the table may be replaced, and the rest of the draft
stays. An assignment adds to the place that is open, and a header opens a place inside another one.

What a table adds up to has the same entries as the table, with the values in one piece before the
tables; this holds of the tables inside it too.
-/

import BlockForge.Proofs.Toml.Expression

namespace BlockForge.Toml

open BlockForge.Json (keysOf)

/-! ## Places in a draft -/

/-- What is added below a path is added to the entries at a place of a draft, whatever these are. -/
def Opens (way : List String) (place : DraftEntries → DraftEntries) : Prop :=
  ∀ (add : Addition) (entries : DraftEntries),
    Addition.under false way add .declared (place entries) = (add .declared entries).map place

/-- The document itself is a place. -/
theorem opens_document : Opens [] id := by
  intro add entries
  rw [Addition.under, Option.map_id]
  rfl

theorem under_append (dotted : Bool) (way path : List String) (add : Addition) :
    Addition.under dotted (way ++ path) add =
      Addition.under dotted way (Addition.under dotted path add) := by
  induction way with
  | nil => rfl
  | cons key way ih =>
      funext origin entries
      simp only [List.cons_append, Addition.under, ih]

theorem lookup_last {α : Type} {key : String} {before : List (String × α)}
    (absent : key ∉ keysOf before) (held : α) :
    (before ++ [(key, held)]).lookup key = some held := by
  rw [List.lookup_append, lookup_eq_none absent]
  simp

theorem replaceEntry_last {key : String} {before : DraftEntries} (absent : key ∉ keysOf before)
    (held other : Draft) :
    replaceEntry key held (before ++ [(key, other)]) = before ++ [(key, held)] := by
  have kept : ∀ entry ∈ before, (if entry.1 = key then (entry.1, held) else (entry.1, entry.2)) =
      entry := by
    intro entry among
    have apart : entry.1 ≠ key := by
      rintro rfl
      exact absent (List.mem_map_of_mem among)
    rw [if_neg apart]
  rw [replaceEntry, List.map_append, List.map_congr_left kept, List.map_id']
  simp

section Places

variable {way : List String} {place : DraftEntries → DraftEntries} (opens : Opens way place)
  {key : String} {before : DraftEntries} (absent : key ∉ keysOf before)

include opens absent

/-- A declared table at the end of a place is a place. -/
theorem Opens.table :
    Opens (way ++ [key]) fun inner => place (before ++ [(key, .table .declared inner)]) := by
  intro add entries
  rw [under_append, opens]
  simp only [Addition.under, lookup_last absent, Bool.false_and, Bool.false_eq_true, if_false,
    replaceEntry_last absent, Option.map_map]
  rfl

/-- The last of several tables at the end of a place is a place. -/
theorem Opens.tables (earlier : List DraftEntries) :
    Opens (way ++ [key]) fun inner => place (before ++ [(key, .tables earlier inner)]) := by
  intro add entries
  rw [under_append, opens]
  simp only [Addition.under, lookup_last absent, replaceEntry_last absent, Option.map_map]
  rfl

end Places

/-! ## What is declared -/

/-- Tables under one header; there is no entry for none of them. -/
def tablesUnder (key : String) (done : List DraftEntries) : DraftEntries :=
  match done.getLast? with
  | some last => [(key, .tables done.dropLast last)]
  | none => []

theorem tablesUnder_append (key : String) (earlier : List DraftEntries) (last : DraftEntries) :
    tablesUnder key (earlier ++ [last]) = [(key, .tables earlier last)] := by
  rw [tablesUnder, List.getLast?_concat, List.dropLast_concat]

/-- The entries of a table that are written in one piece. -/
abbrev inlineEntries (entries : Entries) : Entries := entries.filter (·.2.isInline)

abbrev sectionEntries (entries : Entries) : Entries := entries.filter (!·.2.isInline)

mutual

/-- What the tables that the value of a key holds add up to. -/
def Value.drafts (key : String) : Value → DraftEntries
  | .table entries =>
    [(key, .table .declared (draftsOf (inlineEntries entries) ++ sectionDrafts entries))]
  | .array items =>
    if (Value.array items).isInline then [] else tablesUnder key (tableDrafts items)
  | _ => []

def tableDrafts : List Value → List DraftEntries
  | [] => []
  | .table entries :: rest =>
    (draftsOf (inlineEntries entries) ++ sectionDrafts entries) :: tableDrafts rest
  | _ :: rest => tableDrafts rest

/-- What the tables inside a table add up to. -/
def sectionDrafts : List (String × Value) → DraftEntries
  | [] => []
  | (key, value) :: rest => value.drafts key ++ sectionDrafts rest

end

/-- What a written table adds up to: its values in one piece, and then its tables. -/
def draftOf (entries : Entries) : DraftEntries :=
  draftsOf (inlineEntries entries) ++ sectionDrafts entries

/-- A list that is not written in one piece is one of nothing but tables. -/
theorem all_isTable_of_sections {items : List Value}
    (sections : (Value.array items).isInline = false) :
    items.all Value.isTable = true ∧ tableDrafts items ≠ [] := by
  cases items with
  | nil => cases sections
  | cons item items =>
      have tables : (item :: items).all Value.isTable = true := by
        rw [Value.isInline] at sections
        · simpa using sections
        · exact List.cons_ne_nil _ _
      refine ⟨tables, ?_⟩
      rw [List.all_cons, Bool.and_eq_true] at tables
      cases item with
      | table entries => exact List.cons_ne_nil _ _
      | _ => cases tables.1

/-- Every value that is no value in one piece is one entry. -/
theorem Value.exists_drafts_eq {v : Value} (sections : v.isInline = false) (key : String) :
    ∃ held, v.drafts key = [(key, held)] := by
  cases v with
  | table entries => exact ⟨_, rfl⟩
  | array items =>
      rw [Value.drafts, if_neg (by simp [sections])]
      rcases List.eq_nil_or_concat (tableDrafts items) with none | ⟨earlier, last, parts⟩
      · exact absurd none (all_isTable_of_sections sections).2
      · rw [parts, List.concat_eq_append, tablesUnder_append]
        exact ⟨_, rfl⟩
  | _ => cases sections

theorem Value.drafts_of_isInline {v : Value} (isInline : v.isInline = true) (key : String) :
    v.drafts key = [] := by
  cases v with
  | table entries => cases isInline
  | array items => rw [Value.drafts, if_pos isInline]
  | _ => rfl

theorem Value.sections_of_isInline {v : Value} (isInline : v.isInline = true) (way : List String)
    (key : String) : v.sections way key = [] := by
  cases v with
  | table entries => cases isInline
  | array items => rw [Value.sections, if_pos isInline]
  | _ => rfl

/-! ## Runs of additions -/

/-- Expressions make one draft of another, and leave some header for what follows. -/
def Leads (header : List String) (draft : DraftEntries) (es : List Expression)
    (grown : DraftEntries) : Prop :=
  ∃ last, ∀ rest, addExpressions header draft (es ++ rest) = addExpressions last grown rest

theorem leads_nil (header : List String) (draft : DraftEntries) : Leads header draft [] draft :=
  ⟨header, fun _ => rfl⟩

theorem Leads.append {header : List String} {draft grown final : DraftEntries}
    {es more : List Expression} (first : Leads header draft es grown)
    (second : ∀ last, Leads last grown more final) : Leads header draft (es ++ more) final := by
  obtain ⟨last, run⟩ := first
  obtain ⟨final, others⟩ := second last
  refine ⟨final, fun rest => ?_⟩
  rw [List.append_assoc, run, others]

section Steps

variable {way : List String} {place : DraftEntries → DraftEntries} (opens : Opens way place)
  {before : DraftEntries}

include opens

/-- A header opens an empty table at the end of a place. -/
theorem leads_header {key : String} (absent : key ∉ keysOf before) {header : List String}
    {es : List Expression} {grown : DraftEntries}
    (others : Leads (way ++ [key]) (place (before ++ [(key, .table .declared [])])) es grown) :
    Leads header (place before) (.header ⟨way, key⟩ :: es) grown := by
  obtain ⟨last, run⟩ := others
  refine ⟨last, fun rest => ?_⟩
  rw [List.cons_append, addExpressions, opens]
  simp only [Addition.declare, lookup_eq_none absent, Option.map_some, Option.bind_some]
  exact run rest

/-- A header of several tables opens an empty one after those there are. -/
theorem leads_nextHeader {key : String} (absent : key ∉ keysOf before) (done : List DraftEntries)
    {header : List String} {es : List Expression} {grown : DraftEntries}
    (others : Leads (way ++ [key]) (place (before ++ [(key, .tables done [])])) es grown) :
    Leads header (place (before ++ tablesUnder key done)) (.nextHeader ⟨way, key⟩ :: es) grown := by
  obtain ⟨last, run⟩ := others
  refine ⟨last, fun rest => ?_⟩
  rw [List.cons_append, addExpressions, opens]
  rcases List.eq_nil_or_concat done with rfl | ⟨earlier, table, rfl⟩
  · simp only [tablesUnder, List.getLast?_nil, List.append_nil, Addition.declareNext,
      lookup_eq_none absent, Option.map_some, Option.bind_some]
    exact run rest
  · rw [List.concat_eq_append] at run ⊢
    simp only [tablesUnder_append, Addition.declareNext, lookup_last absent,
      replaceEntry_last absent, Option.map_some, Option.bind_some]
    exact run rest

/-- Values in one piece go to the end of the place that is open. -/
theorem leads_assigned (given : Entries) (distinct : (keysOf before ++ keysOf given).Nodup) :
    Leads way (place before) (given.map fun entry => .assign ⟨[], entry.1⟩ entry.2)
      (place (before ++ draftsOf given)) := by
  induction given generalizing before with
  | nil =>
      rw [draftsOf, List.map_nil, List.map_nil, List.append_nil]
      exact leads_nil way (place before)
  | cons entry given ih =>
      have absent : entry.1 ∉ keysOf before := fun held =>
        (List.nodup_append.mp distinct).2.2 entry.1 held entry.1 (by simp) rfl
      have moved : (keysOf (before ++ [(entry.1, Draft.value entry.2)]) ++ keysOf given).Nodup := by
        simpa [keysOf] using distinct
      obtain ⟨last, run⟩ := ih moved
      refine ⟨last, fun rest => ?_⟩
      rw [List.map_cons, List.cons_append, addExpressions, opens]
      simp only [Addition.under, Addition.assign, lookup_eq_none absent]
      rw [List.append_assoc] at run
      exact run rest

end Steps

theorem keysOf_draftsOf (entries : Entries) : keysOf (draftsOf entries) = keysOf entries := by
  rw [keysOf, draftsOf, List.map_map]
  rfl

/-- The values in one piece and the tables of a table share its keys among them. -/
theorem distinct_parts {entries : Entries} (distinct : (keysOf entries).Nodup) :
    (keysOf (draftsOf (inlineEntries entries)) ++ keysOf (sectionEntries entries)).Nodup := by
  have perm := (List.filter_append_perm (·.2.isInline) entries).map (·.1)
  rw [List.map_append] at perm
  rw [keysOf_draftsOf]
  exact perm.nodup_iff.mpr distinct

/-- What stands below the header of a table goes to the place that the header opened: first the
values in one piece, then the tables. -/
theorem leads_contents {way : List String} {place : DraftEntries → DraftEntries}
    (opens : Opens way place) {entries : Entries} (distinct : (keysOf entries).Nodup)
    (sections : ∀ last, Leads last (place (draftsOf (inlineEntries entries)))
      (sectionsOf way entries) (place (draftOf entries))) :
    Leads way (place []) (assignments entries ++ sectionsOf way entries)
      (place (draftOf entries)) := by
  have assigned := @leads_assigned way place opens [] (inlineEntries entries)
    (distinct.sublist (List.filter_sublist.map _))
  exact assigned.append sections

theorem leads_inline {v : Value} (isInline : v.isInline = true) (way : List String) (key : String)
    (place : DraftEntries → DraftEntries) (before : DraftEntries) (header : List String) :
    Leads header (place before) (v.sections way key) (place (before ++ v.drafts key)) := by
  rw [v.sections_of_isInline isInline, v.drafts_of_isInline isInline, List.append_nil]
  exact leads_nil header _

mutual

/-- The tables that the value of a key holds go to the end of the place that they stand below. -/
theorem Value.leads_sections {way : List String} {place : DraftEntries → DraftEntries}
    (opens : Opens way place) {key : String} : (v : Value) → {levels : Nat} →
    {before : DraftEntries} → key ∉ keysOf before → v.Fits levels → {header : List String} →
    Leads header (place before) (v.sections way key) (place (before ++ v.drafts key))
  | .table entries, levels, before, absent, fits, header =>
    have inner := opens.table absent
    leads_header opens absent (leads_contents inner fits.2.1 fun _ =>
      leads_sectionsOf inner entries (distinct_parts fits.2.1) fits.2.2)
  | .array items, levels, before, absent, fits, header => by
    rw [Value.sections, Value.drafts]
    split
    · rw [List.append_nil]
      exact leads_nil header _
    · have run := @leads_nextSections way place opens key items (levels - 1) before [] absent fits.2
        header
      rw [List.nil_append, tablesUnder, List.getLast?_nil, List.append_nil] at run
      exact run
  | .string _, _, before, _, _, header => leads_inline rfl way key place before header
  | .integer _, _, before, _, _, header => leads_inline rfl way key place before header
  | .float _, _, before, _, _, header => leads_inline rfl way key place before header
  | .bool _, _, before, _, _, header => leads_inline rfl way key place before header

/-- The tables of one header go to the end of those that are there. -/
theorem leads_nextSections {way : List String} {place : DraftEntries → DraftEntries}
    (opens : Opens way place) {key : String} : (items : List Value) → {levels : Nat} →
    {before : DraftEntries} → {done : List DraftEntries} → key ∉ keysOf before →
    ItemsFit levels items → {header : List String} →
    Leads header (place (before ++ tablesUnder key done)) (nextSections way key items)
      (place (before ++ tablesUnder key (done ++ tableDrafts items)))
  | [], levels, before, done, absent, fits, header => by
    rw [tableDrafts, List.append_nil]
    exact leads_nil header _
  | .table entries :: rest, levels, before, done, absent, fits, header => by
    have inner := opens.tables absent done
    have contents := leads_contents inner fits.1.2.1 fun _ =>
      leads_sectionsOf inner entries (distinct_parts fits.1.2.1) fits.1.2.2
    have declared := @leads_nextHeader way place opens before key absent done header _ _ contents
    have others (last : List String) := @leads_nextSections way place opens key rest levels before
      (done ++ [draftOf entries]) absent fits.2 last
    rw [tablesUnder_append, List.append_assoc] at others
    exact declared.append others
  | .string _ :: rest, _, _, _, absent, fits, _ => leads_nextSections opens rest absent fits.2
  | .integer _ :: rest, _, _, _, absent, fits, _ => leads_nextSections opens rest absent fits.2
  | .float _ :: rest, _, _, _, absent, fits, _ => leads_nextSections opens rest absent fits.2
  | .bool _ :: rest, _, _, _, absent, fits, _ => leads_nextSections opens rest absent fits.2
  | .array _ :: rest, _, _, _, absent, fits, _ => leads_nextSections opens rest absent fits.2

/-- The tables inside a table go to the end of its place, one after the other. -/
theorem leads_sectionsOf {way : List String} {place : DraftEntries → DraftEntries}
    (opens : Opens way place) : (entries : List (String × Value)) → {levels : Nat} →
    {before : DraftEntries} → (keysOf before ++ keysOf (sectionEntries entries)).Nodup →
    EntriesFit levels entries → {header : List String} →
    Leads header (place before) (sectionsOf way entries) (place (before ++ sectionDrafts entries))
  | [], levels, before, distinct, fits, header => by
    rw [sectionDrafts, List.append_nil]
    exact leads_nil header _
  | (key, v) :: rest, levels, before, distinct, fits, header => by
    rw [sectionsOf, sectionDrafts, ← List.append_assoc]
    by_cases isInline : v.isInline = true
    · rw [sectionEntries, List.filter_cons_of_neg (by simp [isInline])] at distinct
      have same : before ++ v.drafts key = before := by
        rw [v.drafts_of_isInline isInline, List.append_nil]
      refine (leads_inline isInline way key place before header).append fun last => ?_
      rw [same]
      exact leads_sectionsOf opens rest distinct fits.2
    · rw [sectionEntries, List.filter_cons_of_pos (by simp [isInline])] at distinct
      have absent : key ∉ keysOf before := fun held =>
        (List.nodup_append.mp distinct).2.2 key held key (by simp) rfl
      obtain ⟨held, drafts⟩ := Value.exists_drafts_eq (by simpa using isInline) key
      have moved : (keysOf (before ++ v.drafts key) ++ keysOf (sectionEntries rest)).Nodup := by
        rw [drafts]
        simpa [keysOf] using distinct
      exact (v.leads_sections opens absent fits.1).append fun last =>
        leads_sectionsOf opens rest moved fits.2

end

/-- A written document adds up to its entries, with the tables after the other values. -/
theorem addExpressions_expressionsOf {entries : Entries} {levels : Nat}
    (distinct : (keysOf entries).Nodup) (fits : EntriesFit levels entries) :
    addExpressions [] [] (expressionsOf entries) = some (draftOf entries) := by
  obtain ⟨last, run⟩ := leads_contents opens_document distinct fun _ =>
    leads_sectionsOf opens_document entries (distinct_parts distinct) fits
  have all := run []
  rw [List.append_nil] at all
  exact all

end BlockForge.Toml
