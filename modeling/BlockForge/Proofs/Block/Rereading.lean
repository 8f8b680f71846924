/-
# Descriptions read from what was made of them

A tree that holds the value of a description is read as this description, whatever the order of
its members, and with whatever doubles stand for the numbers of its sliders. So a description comes
back from its stored form as it was but for the numbers that are not finite, and from its text with
the doubles that its numbers are read as.
-/

import BlockForge.Proofs.Block.Descriptions
import BlockForge.Proofs.Json.Layout

namespace BlockForge.Block

open BlockForge.Json

variable {α : Type}

theorem fill_none {read : Except Fault α} {a : α} (reads : read = .ok a) (key : String)
    (standing : Nat) : fill none key standing read = .ok (some a) := by
  rw [fill, reads]
  rfl

theorem need_slot {members : List (String × Value)} {key : String} (held : key ∈ keysOf members)
    (a : α) (stop : Nat) : need (slot members key a) key stop = .ok a := by
  rw [slot, if_pos held]
  rfl

/-- Walks over the members of an object go on if a member was read. -/
theorem Members.Hold.fold_bind {β γ : Type} {step : β → String → Nat → Node → Except Fault β}
    {next : β × Nat → Except Fault γ} {start : β} {result : γ}
    (known : List (String × Value) → β) (starts : known [] = start) {all : List (String × Value)}
    (takes : ∀ done key v standing, ∀ node : Node, (key, v) ∈ all → key ∉ keysOf done →
      node.Holds v → step (known done) key standing node = .ok (known (done ++ [(key, v)])))
    {members : Members} (hold : members.Hold all) (distinct : (keysOf all).Nodup)
    (ends : ∀ stop, next (known all, stop) = .ok result) :
    (members.fold step start >>= next) = .ok result := by
  obtain ⟨stop, walked⟩ := hold.fold known takes distinct
  rw [← starts, walked]
  exact ends stop

/-! ## Fields -/

/-- A member that a field holds back for its kind. -/
def isHeld (member : String × Value) : Bool :=
  !(["name", "label", "forceDefaultValue"].contains member.1)

/-- What is known of a field after some of its members. -/
def knownField (field : Field) (done : List (String × Value)) : FieldDraft where
  name := slot done "name" field.name
  label := slot done "label" field.label
  force := slot done "forceDefaultValue" field.forceDefault
  held := (done.filter isHeld).reverse

theorem isHeld_of_mem {kind : FieldKind} {key : String} {v : Value}
    (own : (key, v) ∈ kindMembers kind) (w : Value) : isHeld (key, w) := by
  have among : key ∈ "type" :: attributeNames kind :=
    ((keysOf_attributesOf kind).cons_cons "type").mem (List.mem_map_of_mem (f := (·.1)) own)
  have distinct : (["name", "label", "forceDefaultValue"] ++ "type" :: attributeNames kind).Nodup :=
    attributeNames_nodup kind
  have apart := (List.nodup_append.mp distinct).2.2
  simp only [isHeld, Bool.not_eq_true', List.contains_eq_mem, decide_eq_false_iff_not]
  intro common
  exact apart key common key among rfl

theorem take_of_isHeld {origin : Origin} {node : Node} {draft : FieldDraft} {key : String}
    {v : Value} (held : isHeld (key, v)) {standing : Nat} (reads : node.value origin = .ok v) :
    draft.take origin key standing node = .ok { draft with held := (key, v) :: draft.held } := by
  simp only [isHeld, Bool.not_eq_true', List.contains_eq_mem, decide_eq_false_iff_not,
    List.mem_cons, List.not_mem_nil, or_false, not_or] at held
  rw [FieldDraft.take, reads]
  · rfl
  · exact held.1
  · exact held.2.1
  · exact held.2.2

theorem knownField_append (field : Field) (done : List (String × Value)) {key : String} {v : Value}
    (held : isHeld (key, v)) : knownField field (done ++ [(key, v)]) =
      { knownField field done with held := (key, v) :: (knownField field done).held } := by
  have kept : [(key, v)].filter isHeld = [(key, v)] := List.filter_cons_of_pos held
  simp only [isHeld, Bool.not_eq_true', List.contains_eq_mem, decide_eq_false_iff_not,
    List.mem_cons, List.not_mem_nil, or_false, not_or] at held
  obtain ⟨name, label, force⟩ := held
  simp only [knownField, slot_append, List.filter_append, kept, List.reverse_append,
    if_neg (Ne.symm name), if_neg (Ne.symm label), if_neg (Ne.symm force)]
  rfl

/-- Just the members of its kind are held back by a field. -/
theorem filter_isHeld (f : Value → Value) (field : Field) :
    (mapMembers f (fieldMembers field)).filter isHeld = mapMembers f (kindMembers field.kind) := by
  have common : (mapMembers f ([("name", .string field.name), ("label", .string field.label)]
      ++ optionalMember "forceDefaultValue" .bool field.forceDefault)).filter isHeld = [] := by
    cases field.forceDefault <;> rfl
  rw [fieldMembers, mapMembers, List.map_append, List.filter_append, common, List.nil_append,
    List.filter_eq_self]
  intro member held
  obtain ⟨⟨key, v⟩, own, rfl⟩ := List.mem_map.mp held
  exact isHeld_of_mem own (f v)

section

variable {h : Binary64 → Option Binary64} {f : Value → Value} (keeping : Keeping h f)
variable {origin : Origin} {node : Node}

include keeping

theorem string_of_holds {s : String} (holds : node.Holds (f (.string s))) :
    node.string = .ok s := by
  rw [keeping.string] at holds
  exact holds.string

theorem bool_of_holds {b : Bool} (holds : node.Holds (f (.bool b))) : node.bool = .ok b := by
  rw [keeping.bool] at holds
  exact holds.bool

theorem readField_eq {field : Field} (fits : field.kind.Fits) (admits : origin.Admits 3)
    (holds : node.Holds (f (fieldValue field))) :
    readField origin node = .ok (field.withNumbers h) := by
  obtain ⟨arranged, changed, perm⟩ := keeping.object _ (fieldMembers_nodup field)
  have value : fieldValue field = .object (fieldMembers field) := rfl
  rw [value, changed] at holds
  obtain ⟨start, members, rfl, hold⟩ := holds.object
  obtain ⟨inner, entered, enough, -⟩ := admits.enter start
  have distinct := Rearranging.distinct_of_perm perm (fieldMembers_nodup field)
  rw [readField, Node.mapOnly, entered]
  apply Members.Hold.fold_bind (knownField field) rfl ?_ hold distinct ?_
  · intro done key v standing node held fresh holds
    obtain ⟨w, among, rfl⟩ := exists_of_perm perm held
    rcases mem_fieldMembers among with ⟨rfl, rfl⟩ | ⟨rfl, rfl⟩ | ⟨b, there, rfl, rfl⟩ | own
    · simp [FieldDraft.take, knownField, slot_of_notMem fresh, slot_append, List.filter_append,
        isHeld, fill_none (string_of_holds keeping holds)]
    · simp [FieldDraft.take, knownField, slot_of_notMem fresh, slot_append, List.filter_append,
        isHeld, fill_none (string_of_holds keeping holds)]
    · have notNull : f (.bool b) ≠ .null := by simp [keeping.bool]
      simp [FieldDraft.take, knownField, slot_of_notMem fresh, slot_append, List.filter_append,
        isHeld, fill_none (holds.optional notNull (bool_of_holds keeping holds)), there]
    · have heldBack := isHeld_of_mem own (f w)
      have sized := nested_kindMember sized_nesting fits own
      have read := holds.value (enough.mono (Nat.le_trans (keeping.depth w) sized.2))
      rw [take_of_isHeld heldBack read, knownField_append field done heldBack]
  · intro stop
    have kind : readFieldKind (knownField field arranged).held.reverse =
        .ok (field.kind.withNumbers h) := by
      apply readFieldKind_eq keeping fits
      rw [← filter_isHeld, knownField, List.reverse_reverse]
      exact perm.filter _
    show (knownField field arranged).field stop = _
    rw [FieldDraft.field, kind]
    simp only [knownField, slot_of_perm perm]
    rw [need_slot (by simp [fieldMembers]), need_slot (by simp [fieldMembers]),
      slot_join fun there => ?_]
    · rfl
    · simp [fieldMembers, mem_keysOf_optionalMember there]

theorem readFields_eq {fields : List Field} (fits : ∀ field ∈ fields, field.kind.Fits)
    (admits : origin.Admits 4) (holds : node.Holds (f (fieldsValue fields))) :
    readFields origin node = .ok (fields.map (Field.withNumbers h)) := by
  rw [fieldsValue, keeping.array] at holds
  obtain ⟨start, items, rfl, hold⟩ := holds.array
  obtain ⟨inner, entered, enough, -⟩ := admits.enter start
  rw [readFields, Node.list, entered]
  apply hold.mapRead
  rw [List.forall₂_map_left_iff, List.forall₂_map_left_iff, List.forall₂_map_right_iff,
    List.forall₂_same]
  intro field among node holds
  exact readField_eq keeping (fits field among) enough holds

/-! ## Repeaters -/

def knownRepeater (repeater : Repeater) (done : List (String × Value)) : RepeaterDraft where
  label := slot done "nameLabel" repeater.label
  nameFrom := slot done "nameFrom" repeater.nameFrom
  fields := slot done "fields" repeater.fields

theorem readRepeater_eq {repeater : Repeater} (fits : ∀ field ∈ repeater.fields, field.kind.Fits)
    (admits : origin.Admits 5) (holds : node.Holds (f (repeaterValue repeater))) :
    readRepeater origin node = .ok (repeater.withNumbers h) := by
  have keys := repeaterMembers_nodup repeater
  obtain ⟨arranged, changed, perm⟩ := keeping.object _ keys
  rw [repeaterValue, changed] at holds
  obtain ⟨start, members, rfl, hold⟩ := holds.object
  obtain ⟨inner, entered, enough, -⟩ := admits.enter start
  rw [readRepeater, Node.record, entered]
  show readRepeaterMembers inner members = _
  rw [readRepeaterMembers]
  apply Members.Hold.fold_bind (knownRepeater (repeater.withNumbers h)) rfl ?_ hold
    (Rearranging.distinct_of_perm perm keys) ?_
  · intro done key v standing node held fresh holds
    obtain ⟨w, among, rfl⟩ := exists_of_perm perm held
    simp only [List.mem_cons, Prod.mk.injEq, List.not_mem_nil, or_false] at among
    rcases among with ⟨rfl, rfl⟩ | ⟨rfl, rfl⟩ | ⟨rfl, rfl⟩
    · simp [RepeaterDraft.take, knownRepeater, Repeater.withNumbers, slot_of_notMem fresh,
        slot_append, fill_none (string_of_holds keeping holds)]
    · simp [RepeaterDraft.take, knownRepeater, Repeater.withNumbers, slot_of_notMem fresh,
        slot_append, fill_none (string_of_holds keeping holds)]
    · simp [RepeaterDraft.take, knownRepeater, Repeater.withNumbers, slot_of_notMem fresh,
        slot_append, fill_none (readFields_eq keeping fits enough holds)]
  · intro stop
    simp only [knownRepeater, slot_of_perm perm]
    rfl

/-! ## Descriptions -/

def knownDescription (block : Description) (done : List (String × Value)) : DescriptionDraft where
  blockName := slot done "blockName" block.blockName
  template := slot done "tplFilename" block.template
  code := slot done "code" block.code
  displayName := slot done "nameLabel" block.displayName
  about := slot done "description" block.about
  tab := slot done "tab" block.tab
  icon := slot done "icon" block.icon
  hasRepeater := slot done "hasRepeater" block.hasRepeater
  fields := slot done "fields" block.fields
  repeater := slot done "repeater" block.repeater

theorem readDescription_eq {block : Description} (fits : block.Fits) (admits : origin.Admits 6)
    (holds : node.Holds (f block.value)) :
    readDescription origin node = .ok (block.withNumbers h) := by
  obtain ⟨arranged, changed, perm⟩ := keeping.object _ (descriptionMembers_nodup block)
  have value : block.value = .object (descriptionMembers block) := rfl
  rw [value, changed] at holds
  obtain ⟨start, members, rfl, hold⟩ := holds.object
  obtain ⟨inner, entered, enough, -⟩ := admits.enter start
  have distinct := Rearranging.distinct_of_perm perm (descriptionMembers_nodup block)
  rw [readDescription, Node.record, entered]
  show readDescriptionMembers inner members = _
  rw [readDescriptionMembers]
  apply Members.Hold.fold_bind (knownDescription (block.withNumbers h)) rfl ?_ hold distinct ?_
  · intro done key v standing node held fresh holds
    obtain ⟨w, among, rfl⟩ := exists_of_perm perm held
    rcases mem_descriptionMembers among with ⟨rfl, rfl⟩ | ⟨rfl, rfl⟩ | ⟨rfl, rfl⟩ | ⟨rfl, rfl⟩ |
      ⟨rfl, rfl⟩ | ⟨rfl, rfl⟩ | ⟨rfl, rfl⟩ | ⟨rfl, rfl⟩ | ⟨rfl, rfl⟩ | ⟨repeater, there, rfl, rfl⟩
    iterate 7
      have text := string_of_holds keeping holds
      simp [DescriptionDraft.take, Key.ofName?, Key.name, knownDescription,
        Description.withNumbers, slot_of_notMem fresh, slot_append, fill_none text]
    · have flag := bool_of_holds keeping holds
      simp [DescriptionDraft.take, Key.ofName?, Key.name, knownDescription,
        Description.withNumbers, slot_of_notMem fresh, slot_append, fill_none flag]
    · have fields := readFields_eq keeping fits.fields (enough.mono (by decide)) holds
      simp [DescriptionDraft.take, Key.ofName?, Key.name, knownDescription,
        Description.withNumbers, slot_of_notMem fresh, slot_append, fill_none fields]
    · have read := readRepeater_eq keeping (fits.repeater there) enough holds
      have notNull : f (repeaterValue repeater) ≠ .null := by
        obtain ⟨inside, changed, -⟩ := keeping.object _ (repeaterMembers_nodup repeater)
        rw [repeaterValue, changed]
        exact Value.noConfusion
      simp [DescriptionDraft.take, Key.ofName?, Key.name, knownDescription,
        Description.withNumbers, slot_of_notMem fresh, slot_append, there,
        fill_none (holds.optional notNull read)]
  · intro stop
    simp only [knownDescription, slot_of_perm perm]
    obtain ⟨_, _, _, _, _, _, _, _, _, repeater⟩ := block
    cases repeater <;> rfl

end

end BlockForge.Block

/-! ## Loading -/

namespace BlockForge.Description

open BlockForge.Json

variable {g : Binary64 → Binary64} {f : Value → Value} {block : Description}

/-- A description is read with other numbers from a tree that holds what was made of its value. -/
theorem readDescription_rearranged {origin : Origin} {node : Node}
    (rearranging : Rearranging g f) (fits : block.Fits) (admits : origin.Admits 6)
    (holds : node.Holds (f block.value)) :
    Block.readDescription origin node = .ok (block.withFloats g) := by
  rw [withFloats_eq_withNumbers]
  exact Block.readDescription_eq rearranging.keeping fits admits holds

/-- A description that breaks no rule is loaded from what was made of its value, with other
numbers. -/
theorem ofValue_rearranged (rearranging : Rearranging g f) (valid : block.issues = [])
    (fits : block.Fits) : ofValue (f block.value) = .ok (block.withFloats g) := by
  rw [ofValue, readDescription_rearranged rearranging fits (Origin.admits_of_unbounded rfl 6)
    (Node.holds_ofValue _)]
  exact accepted_withFloats valid g

/-- The same from a text that is read as what was made of its value, also where blanks stand behind
the text. -/
theorem ofJsonText_prettyText_blanks (rearranging : Rearranging g f) (valid : block.issues = [])
    (fits : block.Fits) {v : Value} (inRange : v.InRange) (reads : v.reread = f block.value)
    {blanks : List Char} (all : ∀ c ∈ blanks, Cursor.isSpace c) :
    ofJsonText (v.prettyText ++ String.ofList blanks) = .ok (block.withFloats g) := by
  obtain ⟨holds, ends⟩ := Document.ofText_prettyAt_blanks inRange all
  rw [reads] at holds
  have read := readDescription_rearranged rearranging fits
    (Origin.admits_text (by decide : 6 < 128)) holds
  rw [ofJsonText, readText, Value.prettyText, String.toList_append, String.toList_ofList,
    String.toList_ofList, read, ends]
  exact accepted_withFloats valid g

theorem ofJsonText_prettyText (rearranging : Rearranging g f) (valid : block.issues = [])
    (fits : block.Fits) {v : Value} (inRange : v.InRange) (reads : v.reread = f block.value) :
    ofJsonText v.prettyText = .ok (block.withFloats g) := by
  have loaded := ofJsonText_prettyText_blanks rearranging valid fits inRange reads
    (List.forall_mem_nil _)
  rwa [String.ofList_nil, String.append_empty] at loaded

/-- The text of a description is loaded with its numbers read anew. -/
theorem ofJsonText_text (valid : block.issues = []) (fits : block.Fits) :
    ofJsonText (block.text .json) = .ok (block.withFloats Binary64.reread) :=
  ofJsonText_prettyText rearranging_reread valid fits fits.sized.1 rfl

/-- The text of what was made of the value of a description is loaded with its numbers read once
more. -/
theorem ofJsonText_rearranged (rearranging : Rearranging g f) (valid : block.issues = [])
    (fits : block.Fits) :
    ofJsonText (f block.value).prettyText = .ok (block.withFloats (Binary64.reread ∘ g)) :=
  ofJsonText_prettyText (rearranging_reread.comp rearranging) valid fits
    (rearranging.inRange _ fits.sized.1) rfl

end BlockForge.Description
