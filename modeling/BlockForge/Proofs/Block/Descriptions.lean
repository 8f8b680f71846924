/-
# Descriptions read back

A tree that holds the value of a description is read as this description, whatever the order of
its members, and with whatever finite doubles stand for the numbers of its sliders. The rules of a
description do not look at these numbers, so a description that breaks none is accepted again.
-/

import BlockForge.Block.Loading
import BlockForge.Proofs.Block.Attributes

namespace BlockForge

open BlockForge.Json

/-! ## Other numbers -/

def Field.withFloats (g : Binary64 → Binary64) (field : Field) : Field :=
  { field with kind := field.kind.withFloats g }

def Repeater.withFloats (g : Binary64 → Binary64) (repeater : Repeater) : Repeater :=
  { repeater with fields := repeater.fields.map (Field.withFloats g) }

def Field.withNumbers (h : Binary64 → Option Binary64) (field : Field) : Field :=
  { field with kind := field.kind.withNumbers h }

def Repeater.withNumbers (h : Binary64 → Option Binary64) (repeater : Repeater) : Repeater :=
  { repeater with fields := repeater.fields.map (Field.withNumbers h) }

/-- The numbers of a range, where they are there. -/
def SliderRange.numbers (range : SliderRange) : List Binary64 :=
  range.default.toList ++ range.step.toList ++ range.least.toList ++ range.greatest.toList

def FieldKind.numbers : FieldKind → List Binary64
  | .slider range => range.numbers
  | _ => []

namespace Description

def withFloats (g : Binary64 → Binary64) (block : Description) : Description :=
  { block with
    fields := block.fields.map (Field.withFloats g)
    repeater := block.repeater.map (Repeater.withFloats g) }

/-- A description with some numbers replaced and others left out. -/
def withNumbers (h : Binary64 → Option Binary64) (block : Description) : Description :=
  { block with
    fields := block.fields.map (Field.withNumbers h)
    repeater := block.repeater.map (Repeater.withNumbers h) }

theorem withFloats_eq_withNumbers (g : Binary64 → Binary64) (block : Description) :
    block.withFloats g = block.withNumbers (finiteOnly g) := by
  have field : Field.withFloats g = Field.withNumbers (finiteOnly g) := by
    funext field
    rw [Field.withFloats, Field.withNumbers, FieldKind.withFloats_eq_withNumbers]
  have repeater : Repeater.withFloats g = Repeater.withNumbers (finiteOnly g) := by
    funext repeater
    rw [Repeater.withFloats, Repeater.withNumbers, field]
  rw [withFloats, withNumbers, field, repeater]

/-- A description whose numbers are all kept is the same one. -/
theorem withNumbers_some (block : Description) : block.withNumbers some = block := by
  have range (range : SliderRange) : range.withNumbers some = range := by
    simp [SliderRange.withNumbers]
  have kind (kind : FieldKind) : kind.withNumbers some = kind := by
    cases kind <;> simp [FieldKind.withNumbers, range]
  have fields (fields : List Field) : fields.map (Field.withNumbers some) = fields := by
    rw [List.map_congr_left fun field _ => show field.withNumbers some = field by
      rw [Field.withNumbers, kind], List.map_id']
  have repeater (repeater : Repeater) : repeater.withNumbers some = repeater := by
    rw [Repeater.withNumbers, fields]
  obtain ⟨_, _, _, _, _, _, _, _, own, inner⟩ := block
  cases inner <;> simp [withNumbers, fields, repeater]

/-- The fields of a block and of its repeater. -/
def allFields (block : Description) : List Field :=
  block.fields ++ (block.repeater.map Repeater.fields).getD []

def numbers (block : Description) : List Binary64 :=
  block.allFields.flatMap (·.kind.numbers)

/-- The size of every title is one of 64 bits. -/
def Fits (block : Description) : Prop := ∀ field ∈ block.allFields, field.kind.Fits

end Description

section Numbers

variable {g : Binary64 → Binary64}

theorem keptFloat_eq_self_iff {x : Option Binary64} :
    keptFloat g x = x ↔ ∀ number ∈ x.toList, number.isFinite ∧ g number = number := by
  cases x with
  | none => simp [keptFloat]
  | some number =>
      by_cases finite : number.isFinite <;> simp [keptFloat, Option.filter, finite]

theorem SliderRange.withFloats_eq_self_iff {range : SliderRange} :
    range.withFloats g = range ↔ ∀ number ∈ range.numbers, number.isFinite ∧ g number = number := by
  obtain ⟨default, step, least, greatest⟩ := range
  simp only [SliderRange.withFloats, SliderRange.numbers, List.forall_mem_append,
    ← keptFloat_eq_self_iff, SliderRange.mk.injEq, and_assoc]

theorem FieldKind.withFloats_eq_self_iff {kind : FieldKind} :
    kind.withFloats g = kind ↔ ∀ number ∈ kind.numbers, number.isFinite ∧ g number = number := by
  cases kind <;>
    simp [FieldKind.withFloats, FieldKind.numbers, SliderRange.withFloats_eq_self_iff]

theorem map_withFloats_eq_self_iff {fields : List Field} :
    fields.map (Field.withFloats g) = fields ↔
      ∀ number ∈ fields.flatMap (·.kind.numbers), number.isFinite ∧ g number = number := by
  induction fields with
  | nil => simp
  | cons field rest ih =>
      obtain ⟨name, label, force, kind⟩ := field
      rw [List.map_cons, List.cons.injEq, ih, List.flatMap_cons, List.forall_mem_append,
        ← FieldKind.withFloats_eq_self_iff]
      simp [Field.withFloats]

/-- The numbers of a description stay if they are finite and each of them stays. -/
theorem Description.withFloats_eq_self_iff {block : Description} :
    block.withFloats g = block ↔ ∀ number ∈ block.numbers, number.isFinite ∧ g number = number := by
  obtain ⟨_, _, _, _, _, _, _, _, fields, repeater⟩ := block
  rw [Description.numbers, Description.allFields, List.flatMap_append, List.forall_mem_append,
    ← map_withFloats_eq_self_iff]
  cases repeater with
  | none => simp [Description.withFloats]
  | some repeater =>
      obtain ⟨label, nameFrom, inner⟩ := repeater
      simp only [Description.withFloats, Repeater.withFloats, Description.mk.injEq, Option.map_some,
        Option.getD_some, Option.some.injEq, Repeater.mk.injEq, true_and,
        ← map_withFloats_eq_self_iff]

theorem keptFloat_toList {x : Option Binary64} (finite : ∀ number ∈ x.toList, number.isFinite) :
    (keptFloat g x).toList = x.toList.map g := by
  cases x with
  | none => rfl
  | some number =>
      have isFinite : number.isFinite := finite number (by simp)
      simp [keptFloat, Option.filter, isFinite]

theorem FieldKind.numbers_withFloats {kind : FieldKind}
    (finite : ∀ number ∈ kind.numbers, number.isFinite) :
    (kind.withFloats g).numbers = kind.numbers.map g := by
  cases kind
  case slider range =>
    simp only [FieldKind.numbers, SliderRange.numbers, List.forall_mem_append] at finite
    obtain ⟨⟨⟨default, step⟩, least⟩, greatest⟩ := finite
    simp only [FieldKind.withFloats, FieldKind.numbers, SliderRange.withFloats, SliderRange.numbers,
      keptFloat_toList default, keptFloat_toList step, keptFloat_toList least,
      keptFloat_toList greatest, List.map_append]
  all_goals rfl

theorem Description.allFields_withFloats (g : Binary64 → Binary64) (block : Description) :
    (block.withFloats g).allFields = block.allFields.map (Field.withFloats g) := by
  obtain ⟨_, _, _, _, _, _, _, _, fields, repeater⟩ := block
  cases repeater <;> simp [Description.allFields, Description.withFloats, Repeater.withFloats]

/-- No number of a description gets lost if all of them are finite. -/
theorem Description.numbers_withFloats {block : Description}
    (finite : ∀ number ∈ block.numbers, number.isFinite) :
    (block.withFloats g).numbers = block.numbers.map g := by
  rw [numbers, allFields_withFloats, List.flatMap_map, numbers, List.map_flatMap]
  apply List.flatMap_congr
  intro field held
  exact FieldKind.numbers_withFloats fun number own =>
    finite number (List.mem_flatMap.mpr ⟨field, held, own⟩)

/-! ## The rules do not look at numbers -/

theorem checkEach_map {α : Type} {check : List Segment → α → List Issue} {f : α → α}
    (blind : ∀ path item, check path (f item) = check path item) (path : List Segment)
    (items : List α) : checkEach check path (items.map f) = checkEach check path items := by
  simp only [checkEach, List.zipIdx_map, List.flatMap_map]
  apply List.flatMap_congr
  rintro ⟨item, position⟩ -
  exact blind _ item

theorem checkField_withNumbers {h : Binary64 → Option Binary64} (path : List Segment)
    (field : Field) : checkField path (field.withNumbers h) = checkField path field := by
  obtain ⟨name, label, force, kind⟩ := field
  cases kind <;> rfl

/-- A description breaks the same rules with other numbers. -/
theorem Description.issues_withNumbers (h : Binary64 → Option Binary64) (block : Description) :
    (block.withNumbers h).issues = block.issues := by
  have repeater : checkRepeater block.hasRepeater (block.repeater.map (Repeater.withNumbers h)) =
      checkRepeater block.hasRepeater block.repeater := by
    cases block.repeater with
    | none => rfl
    | some repeater =>
        cases block.hasRepeater with
        | false => rfl
        | true =>
            simp [checkRepeater, Repeater.withNumbers, checkEach_map checkField_withNumbers]
  rw [issues, issues, withNumbers, checkEach_map checkField_withNumbers, repeater]

theorem Description.accepted_withNumbers {block : Description} (valid : block.issues = [])
    (h : Binary64 → Option Binary64) : (block.withNumbers h).accepted = .ok (block.withNumbers h) := by
  rw [accepted, issues_withNumbers, valid]
  rfl

theorem Description.accepted_withFloats {block : Description} (valid : block.issues = [])
    (g : Binary64 → Binary64) : (block.withFloats g).accepted = .ok (block.withFloats g) := by
  rw [withFloats_eq_withNumbers]
  exact accepted_withNumbers valid _

end Numbers

/-! ## Values of descriptions -/

namespace Block

/-- A property of values and of how deeply they are nested that every value has whose parts have
it. -/
structure Nesting (P : Nat → Value → Prop) : Prop where
  string : ∀ s depth, P depth (.string s)
  bool : ∀ b depth, P depth (.bool b)
  float : ∀ x depth, P depth (.ofFloat x)
  integer : ∀ {i}, fitsSigned64 i → ∀ depth, P depth (.ofInt i)
  array : ∀ {items depth}, (∀ item ∈ items, P depth item) → P (depth + 1) (.array items)
  object : ∀ {members depth}, (keysOf members).Nodup →
    (∀ member ∈ members, P depth member.2) → P (depth + 1) (.object members)
  mono : ∀ {less more v}, P less v → less ≤ more → P more v

/-- Whole numbers are small enough, and nothing is nested more deeply than some levels. -/
def Sized (depth : Nat) (v : Value) : Prop := v.InRange ∧ v.depth ≤ depth

theorem sized_string (s : String) (depth : Nat) : Sized depth (.string s) :=
  ⟨trivial, Nat.zero_le _⟩

theorem sized_bool (b : Bool) (depth : Nat) : Sized depth (.bool b) :=
  ⟨trivial, Nat.zero_le _⟩

theorem sized_float (x : Binary64) (depth : Nat) : Sized depth (.ofFloat x) :=
  ⟨trivial, Nat.zero_le _⟩

theorem sized_integer {i : Int} (fits : fitsSigned64 i) (depth : Nat) : Sized depth (.ofInt i) := by
  refine ⟨?_, Nat.zero_le _⟩
  simp only [fitsSigned64, Bool.and_eq_true, decide_eq_true_eq] at fits
  rw [Value.ofInt, Value.InRange, Value.Each, Number.ofInt]
  split
  · rename_i negative
    exact ⟨negative, by simpa [fitsSigned64] using fits⟩
  · rw [Number.InRange, greatestUnsigned64]
    omega

theorem sized_array {items : List Value} {depth : Nat} (sized : ∀ item ∈ items, Sized depth item) :
    Sized (depth + 1) (.array items) :=
  ⟨eachItem_iff.mpr fun item held => (sized item held).1,
    Nat.succ_le_succ (depthOfItems_le_iff.mpr fun item held => (sized item held).2)⟩

theorem sized_object {members : List (String × Value)} {depth : Nat}
    (sized : ∀ member ∈ members, Sized depth member.2) : Sized (depth + 1) (.object members) :=
  ⟨eachMember_iff.mpr fun member held => (sized member held).1,
    Nat.succ_le_succ (depthOfMembers_le_iff.mpr fun member held => (sized member held).2)⟩

theorem Sized.mono {less more : Nat} {v : Value} (sized : Sized less v) (fewer : less ≤ more) :
    Sized more v :=
  ⟨sized.1, Nat.le_trans sized.2 fewer⟩

theorem Sized.rearranged {levels : Nat} {v : Value} (sized : Sized levels v)
    {g : Binary64 → Binary64} {f : Value → Value} (rearranging : Rearranging g f) :
    Sized levels (f v) :=
  ⟨rearranging.inRange v sized.1, Nat.le_trans (rearranging.depth v) sized.2⟩

theorem sized_nesting : Nesting Sized where
  string := sized_string
  bool := sized_bool
  float := sized_float
  integer fits := sized_integer fits
  array := sized_array
  object _ := sized_object
  mono := Sized.mono

section Nesting

variable {P : Nat → Value → Prop} (nesting : Nesting P)

include nesting

theorem nested_strings (texts : List String) : P 1 (stringArray texts) := by
  apply nesting.array
  intro item held
  obtain ⟨text, -, rfl⟩ := List.mem_map.mp held
  exact nesting.string text 0

theorem nested_choices (choices : List Choice) : P 2 (choicesValue choices) := by
  apply nesting.array
  intro item held
  obtain ⟨choice, -, rfl⟩ := List.mem_map.mp held
  cases choice with
  | plain text => exact nesting.string text 1
  | labeled id label =>
      apply nesting.object
      · simp
      · simp [nesting.string]

theorem nested_title {title : TitleDefault} (fits : fitsSigned64 title.size) :
    P 2 (titleValue title) := by
  apply nesting.object
  · simp
  · simp [nesting.string, nesting.bool, nesting.integer fits, nested_strings nesting]

theorem nested_attribute {kind : FieldKind} (fits : kind.Fits) {key : String} {v : Value}
    (own : (key, v) ∈ attributesOf kind) : P 2 v := by
  have optional {α : Type} {name : String} {write : α → Value} {value : Option α}
      (held : (key, v) ∈ optionalMember name write value)
      (nested : ∀ a, value = some a → P 2 (write a)) : P 2 v := by
    obtain ⟨a, there, -, rfl⟩ := mem_optionalMember held
    exact nested a there
  have strings (texts : List String) : P 2 (stringArray texts) :=
    nesting.mono (nested_strings nesting texts) (by decide)
  cases kind with
  | text default | color default | textarea default | datepicker default =>
      exact optional own fun s _ => nesting.string s 2
  | checkbox default => exact optional own fun b _ => nesting.bool b 2
  | title default =>
      apply optional own
      rintro title rfl
      exact nested_title nesting fits
  | selector collection pattern =>
      simp only [attributesOf, List.mem_cons, Prod.mk.injEq, List.not_mem_nil, or_false] at own
      rcases own with ⟨-, rfl⟩ | ⟨-, rfl⟩ <;> exact nesting.string _ 2
  | fileUpload path urls =>
      rcases List.mem_append.mp own with own | own
      · exact optional own fun s _ => nesting.string s 2
      · exact optional own fun texts _ => strings texts
  | editor provider default =>
      rcases List.mem_append.mp own with own | own
      · exact optional own fun provider _ => nesting.string provider.name 2
      · exact optional own fun s _ => nesting.string s 2
  | select default choices | radioGroup default choices =>
      rcases List.mem_append.mp own with own | own
      · exact optional own fun s _ => nesting.string s 2
      · exact optional own fun choices _ => nested_choices nesting choices
  | multiselect default choices =>
      rcases List.mem_append.mp own with own | own
      · exact optional own fun texts _ => strings texts
      · exact optional own fun choices _ => nested_choices nesting choices
  | slider range =>
      simp only [attributesOf, List.mem_append] at own
      rcases own with ((own | own) | own) | own <;> exact optional own fun x _ => nesting.float x 2

theorem nested_kindMember {kind : FieldKind} (fits : kind.Fits) {key : String} {v : Value}
    (own : (key, v) ∈ kindMembers kind) : P 2 v := by
  rcases List.mem_cons.mp own with name | own
  · rw [(Prod.mk.inj name).2]
    exact nesting.string _ 2
  · exact nested_attribute nesting fits own

end Nesting

def fieldMembers (field : Field) : List (String × Value) :=
  [("name", .string field.name), ("label", .string field.label)]
    ++ optionalMember "forceDefaultValue" .bool field.forceDefault ++ kindMembers field.kind

theorem mem_fieldMembers {field : Field} {key : String} {v : Value}
    (held : (key, v) ∈ fieldMembers field) :
    (key = "name" ∧ v = .string field.name) ∨ (key = "label" ∧ v = .string field.label) ∨
      (∃ b, field.forceDefault = some b ∧ key = "forceDefaultValue" ∧ v = .bool b) ∨
      (key, v) ∈ kindMembers field.kind := by
  simp only [fieldMembers, List.mem_append, List.mem_cons, Prod.mk.injEq, List.not_mem_nil,
    or_false] at held
  rcases held with ((name | label) | force) | own
  · exact .inl name
  · exact .inr (.inl label)
  · exact .inr (.inr (.inl (mem_optionalMember force)))
  · exact .inr (.inr (.inr own))

theorem keysOf_fieldMembers (field : Field) : (keysOf (fieldMembers field)).Sublist
    (["name", "label", "forceDefaultValue", "type"] ++ attributeNames field.kind) := by
  have own : (keysOf (kindMembers field.kind)).Sublist ("type" :: attributeNames field.kind) :=
    (keysOf_attributesOf field.kind).cons_cons "type"
  have common : (keysOf [("name", Value.string field.name), ("label", .string field.label)]).Sublist
      ["name", "label"] := List.Sublist.refl _
  rw [fieldMembers, keysOf, List.map_append]
  exact (keysOf_optionalMembers common _ _ _).append own

theorem fieldMembers_nodup (field : Field) : (keysOf (fieldMembers field)).Nodup :=
  (attributeNames_nodup field.kind).sublist (keysOf_fieldMembers field)

theorem repeaterMembers_nodup (repeater : Repeater) :
    (keysOf [("nameLabel", Value.string repeater.label), ("nameFrom", .string repeater.nameFrom),
      ("fields", fieldsValue repeater.fields)]).Nodup := by
  simp

section Nesting

variable {P : Nat → Value → Prop} (nesting : Nesting P)

include nesting

theorem nested_field {field : Field} (fits : field.kind.Fits) : P 3 (fieldValue field) := by
  apply nesting.object (fieldMembers_nodup field)
  rintro ⟨key, v⟩ held
  rcases mem_fieldMembers held with ⟨-, rfl⟩ | ⟨-, rfl⟩ | ⟨b, -, -, rfl⟩ | own
  · exact nesting.string _ 2
  · exact nesting.string _ 2
  · exact nesting.bool b 2
  · exact nested_kindMember nesting fits own

theorem nested_fields {fields : List Field} (fits : ∀ field ∈ fields, field.kind.Fits) :
    P 4 (fieldsValue fields) := by
  apply nesting.array
  intro item held
  obtain ⟨field, among, rfl⟩ := List.mem_map.mp held
  exact nested_field nesting (fits field among)

theorem nested_repeater {repeater : Repeater} (fits : ∀ field ∈ repeater.fields, field.kind.Fits) :
    P 5 (repeaterValue repeater) := by
  apply nesting.object (repeaterMembers_nodup repeater)
  simp [nesting.string, nested_fields nesting fits]

end Nesting

def descriptionMembers (block : Description) : List (String × Value) :=
  [("blockName", .string block.blockName), ("tplFilename", .string block.template),
    ("code", .string block.code), ("nameLabel", .string block.displayName),
    ("description", .string block.about), ("tab", .string block.tab),
    ("icon", .string block.icon), ("hasRepeater", .bool block.hasRepeater),
    ("fields", fieldsValue block.fields)]
    ++ optionalMember "repeater" repeaterValue block.repeater

theorem descriptionMembers_nodup (block : Description) :
    (keysOf (descriptionMembers block)).Nodup := by
  cases repeater : block.repeater <;> simp [descriptionMembers, repeater, optionalMember]

theorem mem_descriptionMembers {block : Description} {key : String} {v : Value}
    (held : (key, v) ∈ descriptionMembers block) :
    (key = "blockName" ∧ v = .string block.blockName) ∨
    (key = "tplFilename" ∧ v = .string block.template) ∨
    (key = "code" ∧ v = .string block.code) ∨
    (key = "nameLabel" ∧ v = .string block.displayName) ∨
    (key = "description" ∧ v = .string block.about) ∨
    (key = "tab" ∧ v = .string block.tab) ∨
    (key = "icon" ∧ v = .string block.icon) ∨
    (key = "hasRepeater" ∧ v = .bool block.hasRepeater) ∨
    (key = "fields" ∧ v = fieldsValue block.fields) ∨
    ∃ repeater, block.repeater = some repeater ∧ key = "repeater" ∧
      v = repeaterValue repeater := by
  rcases List.mem_append.mp held with plain | repeater
  · simp only [List.mem_cons, Prod.mk.injEq, List.not_mem_nil, or_false] at plain
    rcases plain with plain | plain | plain | plain | plain | plain | plain | plain | plain <;>
      simp [plain]
  · simp [mem_optionalMember repeater]

end Block

namespace Description

variable {block : Description}

theorem Fits.fields (fits : block.Fits) : ∀ field ∈ block.fields, field.kind.Fits :=
  fun field held => fits field (List.mem_append_left _ held)

theorem Fits.repeater (fits : block.Fits) {repeater : Repeater}
    (there : block.repeater = some repeater) : ∀ field ∈ repeater.fields, field.kind.Fits := by
  intro field held
  refine fits field (List.mem_append_right _ ?_)
  rw [there]
  exact held

/-- A description is written six levels deep, from parts that are small enough. -/
theorem Fits.nested (fits : block.Fits) {P : Nat → Value → Prop} (nesting : Block.Nesting P) :
    P 6 block.value := by
  apply nesting.object (Block.descriptionMembers_nodup block)
  rintro ⟨key, v⟩ held
  have fields := nesting.mono (Block.nested_fields nesting fits.fields) (by decide : 4 ≤ 5)
  rcases Block.mem_descriptionMembers held with ⟨-, rfl⟩ | ⟨-, rfl⟩ | ⟨-, rfl⟩ | ⟨-, rfl⟩ | ⟨-, rfl⟩ |
    ⟨-, rfl⟩ | ⟨-, rfl⟩ | ⟨-, rfl⟩ | ⟨-, rfl⟩ | ⟨repeater, there, -, rfl⟩
  case inr.inr.inr.inr.inr.inr.inr.inr.inr =>
    exact Block.nested_repeater nesting (fits.repeater there)
  all_goals simp [nesting.string, nesting.bool, fields]

/-- A description is written without numbers that are too large. -/
theorem Fits.sized (fits : block.Fits) : Block.Sized 6 block.value :=
  fits.nested Block.sized_nesting

end Description

end BlockForge
