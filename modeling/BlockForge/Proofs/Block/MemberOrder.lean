/-
# Descriptions in any order

A description is read from a JSON text while the text goes by, and from a stored value by a walk
over its members in the order of their keys. Both give the same descriptions: readers of fields,
repeaters and descriptions see through the places of a text and through the order of members, and
what they hold back for the kind of a field they hold back in both cases. So wherever the member
stands that names the kind, under whichever of its names a member is written, and wherever members
stand that nobody asks for, the same description comes out, or none.

A key that is met twice makes the difference: a reader of a text refuses it, and the stored value
has only one of its members.
-/

import BlockForge.Block.Loading
import BlockForge.Proofs.Block.AttributeOrder
import BlockForge.Proofs.Block.Rereading
import BlockForge.Proofs.Json.Counterpart
import BlockForge.Proofs.Json.Numbers
import BlockForge.Proofs.Json.Settled

namespace BlockForge.Block

open BlockForge.Json

/-- What has to be there is there in both, wherever they end. -/
theorem need_agrees {α : Type} (slot : Option α) (key : String) (stop last : Nat) :
    Agrees (need slot key stop) (need slot key last) := by
  cases slot with
  | some a => exact Agrees.refl _
  | none => exact Agrees.errors _ _

/-! ## Fields -/

/-- The slots of a field, and what it holds back. -/
def FieldDraft.columns : FieldDraft ≃
    (Option String × Option String × Option (Option Bool)) × Attributes where
  toFun draft := ((draft.name, draft.label, draft.force), draft.held)
  invFun := fun ((name, label, force), held) => ⟨name, label, force, held⟩
  left_inv _ := rfl
  right_inv _ := rfl

def FieldDraft.fills : Option String × Option String × Option (Option Bool) → String × Node →
    Option String × Option String × Option (Option Bool) → Prop :=
  Both (Fills (· = "name") Node.string)
    (Both (Fills (· = "label") Node.string)
      (Fills (· = "forceDefaultValue") (Node.optional Node.bool)))

/-- A member that belongs to the kind of a field is held back. -/
def holdsBack (origin : Origin) (held : Attributes) (member : String × Node)
    (next : Attributes) : Prop :=
  ∃ v, member.2.value origin = .ok v ∧
    next = if isHeld (member.1, v) then (member.1, v) :: held else held

theorem FieldDraft.orderless_fills (origin : Origin) :
    Orderless (MemberCounterpart origin) FieldDraft.fills FieldDraft.fills :=
  (seesThrough_string.slot origin _).both
    ((seesThrough_string.slot origin _).both (seesThrough_bool.optional.slot origin _))

theorem FieldDraft.steps : Steps FieldDraft.take FieldDraft.columns fun origin =>
    Both FieldDraft.fills (holdsBack origin) := by
  intro origin node v read known key standing next
  obtain ⟨name, label, force, held⟩ := known
  obtain ⟨name', label', force', held'⟩ := next
  rw [FieldDraft.take.eq_def]
  split <;> simp only [Both, Fills, FieldDraft.fills, holdsBack, isHeld, bind_eq_ok_iff, fill_eq_ok,
    FieldDraft.columns, Equiv.coe_fn_mk, pure, Except.pure, read]
  all_goals grind

/-- What is held back are the members that belong to the kind, the last one first. -/
theorem walks_holdsBack_iff {origin : Origin} {entries : List (String × Node)} {all : Attributes}
    (values : List.Forall₂
      (fun entry member => entry.1 = member.1 ∧ entry.2.value origin = .ok member.2) entries all)
    {held final : Attributes} : Walks (holdsBack origin) entries held final ↔
      final = (all.filter isHeld).reverse ++ held := by
  induction values generalizing held with
  | nil => exact eq_comm
  | @cons entry member _ _ first _ ih =>
      obtain ⟨key, node⟩ := entry
      obtain ⟨name, v⟩ := member
      obtain ⟨rfl, read⟩ := first
      simp only [Walks, holdsBack, read, Except.ok.injEq, ↓existsAndEq, true_and, ih]
      by_cases own : isHeld (key, v)
      · rw [if_pos own, List.filter_cons_of_pos own, List.reverse_cons, List.append_assoc]
        rfl
      · rw [if_neg own, List.filter_cons_of_neg own]

theorem FieldDraft.fold_iff {origin : Origin} {members : Members} {all : Attributes}
    (read : members.values origin = .ok all) (draft : FieldDraft) :
    (∃ stop, members.fold (FieldDraft.take origin) {} = .ok (draft, stop)) ↔
      Walks FieldDraft.fills members.entries (none, none, none)
        (draft.name, draft.label, draft.force) ∧ draft.held.reverse = all.filter isHeld := by
  rw [FieldDraft.steps.fold_iff members read, walks_both,
    walks_holdsBack_iff (entries_of_values members read)]
  refine and_congr Iff.rfl ?_
  rw [List.reverse_eq_iff]
  exact Iff.of_eq (congrArg (draft.held = ·) (List.append_nil _))

theorem FieldDraft.field_agrees {draft other : FieldDraft} (name : draft.name = other.name)
    (label : draft.label = other.label) (force : draft.force = other.force)
    (held : ReorderedMembers draft.held.reverse other.held.reverse) (stop last : Nat) :
    Agrees (draft.field stop) (other.field last) := by
  rw [FieldDraft.field, FieldDraft.field, name, label, force]
  refine (need_agrees _ _ _ _).bind fun name => ?_
  refine (need_agrees _ _ _ _).bind fun label => ?_
  have kinds := readFieldKind_agrees held
  cases read : readFieldKind draft.held.reverse with
  | ok kind =>
      rw [(kinds kind).mp read]
      exact Agrees.refl _
  | error fault =>
      cases reread : readFieldKind other.held.reverse with
      | ok kind => rw [(kinds kind).mpr reread] at read; cases read
      | error otherFault => exact Agrees.errors _ _

theorem seesThrough_readField : SeesThrough readField := by
  refine seesThrough_mapOnly fun {origin members others} counterpart => ?_
  obtain ⟨moved, pointwise, perm⟩ := counterpart.entries
  obtain ⟨-, all, arranged, read, reordered, rfl⟩ := counterpart
  have walks (draft : FieldDraft) := FieldDraft.fold_iff read draft
  have again (draft : FieldDraft) := FieldDraft.fold_iff (hold_membersOfValues arranged) draft
  have slots {known final : Option String × Option String × Option (Option Bool)} :
      Walks FieldDraft.fills members.entries known final ↔
        Walks FieldDraft.fills (membersOfValues arranged).entries known final :=
    (FieldDraft.orderless_fills origin).walks_iff pointwise perm
  have held {draft other : FieldDraft} (own : draft.held.reverse = all.filter isHeld)
      (others : other.held.reverse = arranged.filter isHeld) :
      ReorderedMembers draft.held.reverse other.held.reverse := by
    rw [own, others]
    exact reordered.filter fun key => !(["name", "label", "forceDefaultValue"].contains key)
  refine Agrees.bind_related (fun ending other =>
    (ending.1.name, ending.1.label, ending.1.force) = (other.1.name, other.1.label, other.1.force) ∧
      ReorderedMembers ending.1.held.reverse other.1.held.reverse) ?_ ?_ ?_
  · rintro ⟨draft, stop⟩ walked
    obtain ⟨filled, own⟩ := (walks draft).mp ⟨stop, walked⟩
    let other : FieldDraft := { draft with held := (arranged.filter isHeld).reverse }
    have others : other.held.reverse = arranged.filter isHeld := List.reverse_reverse _
    obtain ⟨last, walked⟩ := (again other).mpr ⟨slots.mp filled, others⟩
    exact ⟨(other, last), walked, rfl, held own others⟩
  · rintro ⟨other, last⟩ walked
    obtain ⟨filled, others⟩ := (again other).mp ⟨last, walked⟩
    let draft : FieldDraft := { other with held := (all.filter isHeld).reverse }
    have own : draft.held.reverse = all.filter isHeld := List.reverse_reverse _
    obtain ⟨stop, walked⟩ := (walks draft).mpr ⟨slots.mpr filled, own⟩
    exact ⟨(draft, stop), walked, rfl, held own others⟩
  · rintro ⟨draft, stop⟩ ⟨other, last⟩ ⟨same, held⟩
    obtain ⟨name, rest⟩ := Prod.mk.inj same
    obtain ⟨label, force⟩ := Prod.mk.inj rest
    exact FieldDraft.field_agrees name label force held stop last

theorem seesThrough_readFields : SeesThrough readFields := seesThrough_readField.list

/-! ## Repeaters -/

def RepeaterDraft.columns :
    RepeaterDraft ≃ Option String × Option String × Option (List Field) where
  toFun draft := (draft.label, draft.nameFrom, draft.fields)
  invFun := fun (label, nameFrom, fields) => ⟨label, nameFrom, fields⟩
  left_inv _ := rfl
  right_inv _ := rfl

theorem RepeaterDraft.steps : Steps RepeaterDraft.take RepeaterDraft.columns fun origin =>
    Both (Fills (fun key => key = "nameLabel" ∨ key = "label") Node.string)
      (Both (Fills (· = "nameFrom") Node.string) (Fills (· = "fields") (readFields origin))) := by
  intro origin node v read known key standing next
  obtain ⟨label, nameFrom, fields⟩ := known
  obtain ⟨label', nameFrom', fields'⟩ := next
  rw [RepeaterDraft.take.eq_def]
  dsimp only
  split <;> simp only [Both, Fills, bind_eq_ok_iff, fill_eq_ok, RepeaterDraft.columns,
    Equiv.coe_fn_mk, pure, Except.pure, node.skip_of_value read]
  all_goals grind

theorem seesThrough_readRepeater : SeesThrough readRepeater := by
  refine seesThrough_record (fun {origin items others} counterpart => ?_)
    fun {origin members others} counterpart => ?_
  · refine seesThrough_string.required_bind counterpart _ _ fun label _ _ counterpart => ?_
    refine seesThrough_string.required_bind counterpart _ _ fun nameFrom _ _ counterpart => ?_
    refine seesThrough_readFields.orDefault_bind counterpart _ fun fields _ _ counterpart => ?_
    exact counterpart.finish.bind fun _ => Agrees.refl _
  · refine RepeaterDraft.steps.fold_bind (fun origin => (seesThrough_string.slot origin _).both
      ((seesThrough_string.slot origin _).both (seesThrough_readFields.slot origin _)))
      counterpart {} fun draft stop last => ?_
    refine (need_agrees _ _ _ _).bind fun label => ?_
    exact (need_agrees _ _ _ _).bind fun nameFrom => Agrees.refl _

/-! ## Descriptions -/

def DescriptionDraft.columns : DescriptionDraft ≃ Option String × Option String × Option String ×
    Option String × Option String × Option String × Option String × Option Bool ×
    Option (List Field) × Option (Option Repeater) where
  toFun draft :=
    (draft.blockName, draft.template, draft.code, draft.displayName, draft.about, draft.tab,
      draft.icon, draft.hasRepeater, draft.fields, draft.repeater)
  invFun := fun (blockName, template, code, displayName, about, tab, icon, hasRepeater, fields,
      repeater) =>
    ⟨blockName, template, code, displayName, about, tab, icon, hasRepeater, fields, repeater⟩
  left_inv _ := rfl
  right_inv _ := rfl

/-- The keys that name a member of a description. -/
def Key.Names (member : Key) (key : String) : Prop := Key.ofName? key = some member

theorem DescriptionDraft.steps : Steps DescriptionDraft.take DescriptionDraft.columns
    fun origin =>
      Both (Fills Key.blockName.Names Node.string) <|
      Both (Fills Key.template.Names Node.string) <|
      Both (Fills Key.code.Names Node.string) <|
      Both (Fills Key.displayName.Names Node.string) <|
      Both (Fills Key.about.Names Node.string) <|
      Both (Fills Key.tab.Names Node.string) <|
      Both (Fills Key.icon.Names Node.string) <|
      Both (Fills Key.hasRepeater.Names Node.bool) <|
      Both (Fills Key.fields.Names (readFields origin))
        (Fills Key.repeater.Names (Node.optional (readRepeater origin))) := by
  intro origin node v read known key standing next
  obtain ⟨blockName, template, code, displayName, about, tab, icon, hasRepeater, fields,
    repeater⟩ := known
  obtain ⟨blockName', template', code', displayName', about', tab', icon', hasRepeater', fields',
    repeater'⟩ := next
  rw [DescriptionDraft.take.eq_def]
  cases named : Key.ofName? key with
  | none =>
      simp only [Both, Fills, Key.Names, named, bind_eq_ok_iff, DescriptionDraft.columns,
        Equiv.coe_fn_mk, pure, Except.pure, node.skip_of_value read]
      grind
  | some member =>
      cases member <;> simp only [Both, Fills, Key.Names, named, bind_eq_ok_iff, fill_eq_ok,
        DescriptionDraft.columns, Equiv.coe_fn_mk, pure, Except.pure, Except.ok.injEq,
        DescriptionDraft.mk.injEq, ↓existsAndEq, Option.some.injEq, reduceCtorEq, false_and,
        false_or, or_false, not_false_eq_true, not_true_eq_false, true_and]
      all_goals grind

/-- A description is read from a tree as from the tree of its value, in any order. -/
theorem seesThrough_readDescription : SeesThrough readDescription := by
  refine seesThrough_record (fun {origin items others} counterpart => ?_)
    fun {origin members others} counterpart => ?_
  · refine seesThrough_string.required_bind counterpart _ _ fun blockName _ _ counterpart => ?_
    refine seesThrough_string.required_bind counterpart _ _ fun template _ _ counterpart => ?_
    refine seesThrough_string.required_bind counterpart _ _ fun code _ _ counterpart => ?_
    refine seesThrough_string.required_bind counterpart _ _ fun displayName _ _ counterpart => ?_
    refine seesThrough_string.required_bind counterpart _ _ fun about _ _ counterpart => ?_
    refine seesThrough_string.orDefault_bind counterpart _ fun tab _ _ counterpart => ?_
    refine seesThrough_string.orDefault_bind counterpart _ fun icon _ _ counterpart => ?_
    refine seesThrough_bool.required_bind counterpart _ _ fun hasRepeater _ _ counterpart => ?_
    refine seesThrough_readFields.orDefault_bind counterpart _ fun fields _ _ counterpart => ?_
    refine seesThrough_readRepeater.optional.orDefault_bind counterpart _
      fun repeater _ _ counterpart => ?_
    exact counterpart.finish.bind fun _ => Agrees.refl _
  · have string (origin : Origin) (member : Key) := seesThrough_string.slot origin member.Names
    refine DescriptionDraft.steps.fold_bind (fun origin =>
      (string origin _).both <| (string origin _).both <| (string origin _).both <|
      (string origin _).both <| (string origin _).both <| (string origin _).both <|
      (string origin _).both <| (seesThrough_bool.slot origin _).both <|
      (seesThrough_readFields.slot origin _).both
        (seesThrough_readRepeater.optional.slot origin _)) counterpart {} fun draft stop last => ?_
    iterate 6 refine (need_agrees _ _ _ _).bind fun _ => ?_
    exact Agrees.refl _

end BlockForge.Block

namespace BlockForge.Description

open BlockForge.Json

/-! ## Verdicts -/

/-- Two ways of loading accept the same description, or refuse it for the same issues, or find no
description. -/
structure SameVerdict (loaded other : Except LoadError Description) : Prop where
  accepted : ∀ block, loaded = .ok block ↔ other = .ok block
  invalid : ∀ issues, loaded = .error (.invalid issues) ↔ other = .error (.invalid issues)

namespace SameVerdict

variable {loaded other third : Except LoadError Description}

theorem refl (loaded : Except LoadError Description) : SameVerdict loaded loaded :=
  ⟨fun _ => Iff.rfl, fun _ => Iff.rfl⟩

theorem symm (same : SameVerdict loaded other) : SameVerdict other loaded :=
  ⟨fun block => (same.accepted block).symm, fun issues => (same.invalid issues).symm⟩

theorem trans (same : SameVerdict loaded other) (further : SameVerdict other third) :
    SameVerdict loaded third :=
  ⟨fun block => (same.accepted block).trans (further.accepted block),
    fun issues => (same.invalid issues).trans (further.invalid issues)⟩

end SameVerdict

variable {text : String} {v w : Value}

/-- A text is loaded as any stored value is that has its members in another order. -/
theorem sameVerdict_of_reordered (parsed : Value.ofText text.toList = .ok v)
    (reordered : v.Reordered w) : SameVerdict (ofJsonText text) (ofValue w) := by
  obtain ⟨root, whole⟩ := readText_eq_ok.mp parsed
  have counterpart : (Document.ofText text.toList).root.Counterpart .text (Node.ofValue w) :=
    ⟨by decide, v, w, root, reordered, rfl⟩
  have reads := Block.seesThrough_readDescription counterpart
  have text_reads (block : Description) :
      readText text.toList (Block.readDescription .text) = .ok block ↔
        Block.readDescription .stored (Node.ofValue w) = .ok block := by
    rw [readText_eq_ok, reads block]
    exact and_iff_left whole
  rw [ofJsonText, ofValue]
  cases stored : Block.readDescription .stored (Node.ofValue w) with
  | ok block =>
      rw [(text_reads block).mpr stored]
      exact SameVerdict.refl _
  | error fault =>
      cases read : readText text.toList (Block.readDescription .text) with
      | ok block => rw [(text_reads block).mp read] at stored; cases stored
      | error textFault =>
          refine ⟨fun block => ?_, fun issues => ?_⟩ <;>
          exact iff_of_false (fun same => by cases same) fun same => by cases same

/-- A JSON text none of whose objects has a key twice is loaded as its stored value is: the same
description is accepted, or refused for the same issues. The order of the members of its objects
does not matter. -/
theorem sameVerdict_ofJsonText_ofValue (parsed : Value.ofText text.toList = .ok v)
    (distinct : v.Distinct) :
    SameVerdict (ofJsonText text) (ofValue v.canonical) ∧
    ∀ other w, Value.ofText other.toList = .ok w → v.Reordered w →
      SameVerdict (ofJsonText other) (ofJsonText text) := by
  have json := Value.ofText_gives text.toList v parsed
  refine ⟨sameVerdict_of_reordered parsed (v.reordered_canonical distinct json), ?_⟩
  intro other w again reordered
  have own := sameVerdict_of_reordered again (Value.Reordered.refl w)
  exact own.trans (sameVerdict_of_reordered parsed reordered).symm

/-- A description whose members stand in an unusual order and under their second names, with one
that nobody asks for; the kind of its field is named last, and the size of a title is a double. -/
def shuffledValue : Value :=
  .object [("hasRepeater", .bool false), ("displayName", .string "Card"),
    ("fields", .array [.object [("defaultValue", .object [("size", .ofFloat (.ofInt 20)),
        ("value", .string "Hi")]), ("label", .string "Heading"), ("forceDefaultValue", .null),
      ("name", .string "heading"), ("type", .string "title")]]),
    ("notes", .array [.number (.unsigned 1), .object []]), ("repeater", .null),
    ("code", .string "cpb_card"), ("templateFilename", .string "card.tpl"),
    ("description", .string "A card"), ("blockName", .string "Card")]

def cardBlock : Description where
  blockName := "Card"
  template := "card.tpl"
  code := "cpb_card"
  displayName := "Card"
  about := "A card"
  tab := defaultTab
  icon := defaultIcon
  hasRepeater := false
  fields := [⟨"heading", "Heading", none, .title (some { value := "Hi", size := 20 })⟩]
  repeater := none

theorem sameVerdict_shuffledValue :
    (Value.ofText shuffledValue.prettyText.toList = .ok shuffledValue ∧ shuffledValue.Distinct) ∧
    ofValue shuffledValue.canonical = .ok cardBlock ∧
    ofJsonText shuffledValue.prettyText = .ok cardBlock ∧
    ofJsonText shuffledValue.canonical.prettyText = .ok cardBlock := by
  have inRange : shuffledValue.InRange := by
    simp [shuffledValue, Value.InRange, Value.Each, EachMember, EachItem, Value.ofFloat,
      Number.InRange, greatestUnsigned64]
  have size : (Binary64.ofInt 20).isFinite ∧ (Binary64.ofInt 20).reread = .ofInt 20 := by
    decide +kernel
  have kept : shuffledValue.Each Number.Kept := by
    simp [shuffledValue, Value.Each, EachMember, EachItem, Value.ofFloat, Number.Kept, size]
  have shallow : shuffledValue.depth < 128 := by decide
  have parsed : shuffledValue.ReadsBack := (Value.readsBack_iff inRange shallow).mpr kept
  have distinct : shuffledValue.Distinct := by
    simp [shuffledValue, Value.Distinct, DistinctMembers, DistinctItems, keysOf, Value.ofFloat]
  have stored : ofValue shuffledValue.canonical = .ok cardBlock := by
    have read : (ofValue shuffledValue.canonical).toOption = some cardBlock := by decide +kernel
    cases result : ofValue shuffledValue.canonical with
    | error fault => rw [result] at read; cases read
    | ok block =>
        rw [result] at read
        exact congrArg Except.ok (Option.some.inj read)
  have again : shuffledValue.canonical.ReadsBack :=
    (Value.readsBack_iff (Value.each_canonical _ inRange)
      (Nat.lt_of_le_of_lt (Value.depth_canonical_le _) shallow)).mpr (Value.each_canonical _ kept)
  obtain ⟨same, others⟩ := sameVerdict_ofJsonText_ofValue parsed distinct
  have loaded := (same.accepted cardBlock).mpr stored
  have sorted := others _ _ again (shuffledValue.reordered_canonical distinct
    (Value.ofText_gives _ _ parsed))
  exact ⟨⟨parsed, distinct⟩, stored, loaded, (sorted.accepted cardBlock).mpr loaded⟩

end BlockForge.Description
