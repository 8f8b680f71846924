/-
# Attributes in any order

The kind of a field, its options, its title and the range of its slider are read from members in any
order, wherever the member stands that names the kind. Every reader of a value gives the same for a
value and for one in which members stand in another order. This goes through the readers one by one:
most refuse arrays and objects alike, lists are read item by item, and what is read from members is
a row of slots, which does not depend on their order.
-/

import BlockForge.Proofs.Json.Filling

namespace BlockForge.Block

open BlockForge.Json

variable {α β γ : Type} {all others : Attributes}

/-! ## Readers of values -/

/-- A reader that does not see in which order members stand. -/
def Blind (read : Value → Except Refusal α) : Prop :=
  ∀ ⦃v w : Value⦄, v.Reordered w → Agrees (read v) (read w)

/-- Only arrays and objects can be in another order. -/
theorem blind_of_parts {read : Value → Except Refusal α}
    (arrays : ∀ items others, List.Forall₂ Value.Reordered items others →
      Agrees (read (.array items)) (read (.array others)))
    (objects : ∀ members others, ReorderedMembers members others →
      Agrees (read (.object members)) (read (.object others))) : Blind read := by
  intro v w reordered
  cases v with
  | array items =>
      obtain ⟨others, rfl, pointwise⟩ := reordered.array
      exact arrays items others pointwise
  | object members =>
      obtain ⟨others, rfl, moved⟩ := reordered.object
      exact objects members others moved
  | null => rw [Value.Reordered.scalar (s := .null) reordered]; exact Agrees.refl _
  | bool b => rw [Value.Reordered.scalar (s := .bool b) reordered]; exact Agrees.refl _
  | number n => rw [Value.Reordered.scalar (s := .number n) reordered]; exact Agrees.refl _
  | string s => rw [Value.Reordered.scalar (s := .string s) reordered]; exact Agrees.refl _

theorem blind_readString : Blind readString :=
  blind_of_parts (fun _ _ _ => Agrees.errors _ _) (fun _ _ _ => Agrees.errors _ _)

theorem blind_readBool : Blind readBool :=
  blind_of_parts (fun _ _ _ => Agrees.errors _ _) (fun _ _ _ => Agrees.errors _ _)

theorem blind_readFloat : Blind readFloat :=
  blind_of_parts (fun _ _ _ => Agrees.errors _ _) (fun _ _ _ => Agrees.errors _ _)

theorem blind_readInteger : Blind readInteger :=
  blind_of_parts (fun _ _ _ => Agrees.errors _ _) (fun _ _ _ => Agrees.errors _ _)

theorem blind_readKindName : Blind readKindName :=
  blind_of_parts (fun _ _ _ => Agrees.errors _ _) (fun _ _ _ => Agrees.errors _ _)

theorem Blind.optional {read : Value → Except Refusal α} (blind : Blind read) :
    Blind (readOptional read) :=
  blind_of_parts (fun _ _ pointwise => (blind (Value.reordered_array pointwise)).map some)
    (fun _ _ moved => (blind (Value.reordered_object moved)).map some)

theorem Blind.mapM {read : Value → Except Refusal α} (blind : Blind read) {items others : List Value}
    (pointwise : List.Forall₂ Value.Reordered items others) :
    Agrees (items.mapM read) (others.mapM read) := by
  induction pointwise with
  | nil => exact Agrees.refl _
  | cons first _ ih =>
      rw [List.mapM_cons, List.mapM_cons]
      refine (blind first).bind fun a => ?_
      exact ih.bind fun _ => Agrees.refl _

theorem Blind.list {read : Value → Except Refusal α} (blind : Blind read) :
    Blind (readList read) :=
  blind_of_parts (fun _ _ pointwise => blind.mapM pointwise) (fun _ _ _ => Agrees.errors _ _)

/-- The slot of some keys is filled in any order. -/
theorem Blind.slot {read : Value → Except Refusal α} (blind : Blind read) (among : String → Prop) :
    Orderless ReorderedMember (Fills among read) (Fills among read) :=
  orderless_fills among (fun _ _ same => same.1) (fun _ _ same => blind same.2)

/-! ## Options, editors and titles -/

theorem readLabeled_agrees (reordered : ReorderedMembers all others) :
    Agrees (readLabeled all) (readLabeled others) := by
  refine (foldAttributes_agrees (Equiv.refl _) (fun known key v next => ?_)
    ((blind_readString.slot (· = "id")).both (blind_readString.slot (· = "label"))) reordered
    (none, none)).bind fun _ => Agrees.refl _
  obtain ⟨id, label⟩ := known
  obtain ⟨id', label'⟩ := next
  dsimp only
  split <;> simp only [Both, Fills, bind_eq_ok_iff, fillSlot_eq_ok, Equiv.refl_apply, pure,
    Except.pure]
  all_goals grind

theorem blind_readChoice : Blind readChoice := by
  refine blind_of_parts (fun _ _ _ => Agrees.errors _ _) fun members others reordered => ?_
  have labeled := readLabeled_agrees reordered
  rw [readChoice, readChoice]
  cases read : readLabeled members with
  | ok choice =>
      rw [(labeled choice).mp read]
      exact Agrees.refl _
  | error fault =>
      cases reread : readLabeled others with
      | ok choice => rw [(labeled choice).mpr reread] at read; cases read
      | error other => exact Agrees.refl _

/-- The empty value of an editor that is written as an object. -/
theorem blind_unit (provider : EditorProvider) : Blind fun value =>
    match value with
    | .null => return provider
    | .object [] => return provider
    | other => .error (wrongType other "unit") := by
  refine blind_of_parts (fun _ _ _ => Agrees.errors _ _) fun members others reordered => ?_
  cases members with
  | nil =>
      rw [reordered.eq_nil]
      exact Agrees.refl _
  | cons member rest =>
      cases others with
      | nil => cases reordered.length_eq
      | cons other others => exact Agrees.errors _ _

theorem blind_readProvider : Blind readProvider := by
  refine blind_of_parts (fun _ _ _ => Agrees.errors _ _) fun members others reordered => ?_
  match members with
  | [] =>
      rw [reordered.eq_nil]
      exact Agrees.refl _
  | [(name, v)] =>
      obtain ⟨w, rfl, inside⟩ := reordered.eq_singleton
      exact (Agrees.refl _).bind fun provider => blind_unit provider inside
  | _ :: _ :: _ =>
      match others, reordered.length_eq with
      | _ :: _ :: _, _ => exact Agrees.errors _ _

def TitleDraft.columns : TitleDraft ≃ Option String × Option (List String) × Option String ×
    Option Bool × Option Bool × Option Bool × Option Bool × Option Int where
  toFun draft :=
    (draft.tag, draft.classes, draft.value, draft.focus, draft.bold, draft.italic,
      draft.underline, draft.size)
  invFun := fun (tag, classes, value, focus, bold, italic, underline, size) =>
    ⟨tag, classes, value, focus, bold, italic, underline, size⟩
  left_inv _ := rfl
  right_inv _ := rfl

theorem title_agrees (reordered : ReorderedMembers all others) :
    Agrees (foldAttributes TitleDraft.take {} all) (foldAttributes TitleDraft.take {} others) := by
  refine foldAttributes_agrees TitleDraft.columns (fun known key v next => ?_)
    ((blind_readString.slot (· = "tag")).both <|
      (blind_readString.list.slot (· = "classes")).both <|
      (blind_readString.slot (· = "value")).both <|
      (blind_readBool.slot (· = "focus")).both <|
      (blind_readBool.slot (· = "bold")).both <|
      (blind_readBool.slot (· = "italic")).both <|
      (blind_readBool.slot (· = "underline")).both (blind_readInteger.slot (· = "size")))
    reordered {}
  obtain ⟨tag, classes, value, focus, bold, italic, underline, size⟩ := known
  obtain ⟨tag', classes', value', focus', bold', italic', underline', size'⟩ := next
  rw [TitleDraft.take.eq_def]
  split <;> simp only [Both, Fills, bind_eq_ok_iff, fillSlot_eq_ok, TitleDraft.columns,
    Equiv.coe_fn_mk, pure, Except.pure]
  all_goals grind

theorem nextSlot_bind {read : Value → Except Refusal α} (blind : Blind read)
    {next further : Option α × List Value → Except Refusal β} {items others : List Value}
    (pointwise : List.Forall₂ Value.Reordered items others)
    (onward : ∀ slot {rest left}, List.Forall₂ Value.Reordered rest left →
      Agrees (next (slot, rest)) (further (slot, left))) :
    Agrees (nextSlot read items >>= next) (nextSlot read others >>= further) := by
  cases pointwise with
  | nil => exact onward none .nil
  | cons first later => exact (blind first).map_bind fun a => onward (some a) later

theorem readTitleItems_agrees {items others : List Value}
    (pointwise : List.Forall₂ Value.Reordered items others) :
    Agrees (readTitleItems items) (readTitleItems others) := by
  rw [readTitleItems, readTitleItems]
  refine nextSlot_bind blind_readString pointwise fun tag _ _ pointwise => ?_
  refine nextSlot_bind blind_readString.list pointwise fun classes _ _ pointwise => ?_
  refine nextSlot_bind blind_readString pointwise fun value _ _ pointwise => ?_
  refine nextSlot_bind blind_readBool pointwise fun focus _ _ pointwise => ?_
  refine nextSlot_bind blind_readBool pointwise fun bold _ _ pointwise => ?_
  refine nextSlot_bind blind_readBool pointwise fun italic _ _ pointwise => ?_
  refine nextSlot_bind blind_readBool pointwise fun underline _ _ pointwise => ?_
  refine nextSlot_bind blind_readInteger pointwise fun size _ _ pointwise => ?_
  cases pointwise with
  | nil => exact Agrees.refl _
  | cons _ _ => exact Agrees.errors _ _

theorem blind_readTitle : Blind readTitle :=
  blind_of_parts (fun _ _ => readTitleItems_agrees)
    fun _ _ reordered => (title_agrees reordered).map TitleDraft.title

/-! ## Attributes of kinds -/

theorem readDefault_agrees {read : Value → Except Refusal α} (blind : Blind read)
    (reordered : ReorderedMembers all others) :
    Agrees (readDefault read all) (readDefault read others) := by
  refine (foldAttributes_agrees (Equiv.refl _) (fun slot key v filled => ?_)
    (blind.optional.slot (· = "defaultValue")) reordered none).bind fun _ => Agrees.refl _
  by_cases own : key = "defaultValue" <;>
    simp [Fills, own, fillSlot_eq_ok, pure, Except.pure, @eq_comm _ slot]

theorem readKindMember_agrees (reordered : ReorderedMembers all others) :
    Agrees (readKindMember all) (readKindMember others) := by
  refine (foldAttributes_agrees (Equiv.refl _) (fun slot key v filled => ?_)
    (blind_readKindName.slot (· = "type")) reordered none).bind fun _ => Agrees.refl _
  by_cases own : key = "type" <;>
    simp [Fills, own, fillSlot_eq_ok, pure, Except.pure, @eq_comm _ slot]

theorem readPair_agrees {first : Value → Except Refusal α} {second : Value → Except Refusal β}
    (one : Blind first) (two : Blind second) (firstKey secondKey : String)
    (reordered : ReorderedMembers all others) :
    Agrees (readPair firstKey first secondKey second all)
      (readPair firstKey first secondKey second others) := by
  refine (foldAttributes_agrees (Equiv.refl _) (fun known key v next => ?_)
    ((one.optional.slot (· = firstKey)).both
      (two.optional.slot fun key => key ≠ firstKey ∧ key = secondKey)) reordered
    (none, none)).bind fun _ => Agrees.refl _
  obtain ⟨a, b⟩ := known
  obtain ⟨c, d⟩ := next
  dsimp only
  split_ifs <;> simp only [Both, Fills, bind_eq_ok_iff, fillSlot_eq_ok, Equiv.refl_apply, pure,
    Except.pure]
  all_goals grind

theorem readSelector_agrees (reordered : ReorderedMembers all others) :
    Agrees (readSelector all) (readSelector others) := by
  refine (foldAttributes_agrees (Equiv.refl _) (fun known key v next => ?_)
    ((blind_readString.slot (· = "collection")).both (blind_readString.slot (· = "selector")))
    reordered (none, none)).bind fun _ => Agrees.refl _
  obtain ⟨collection, pattern⟩ := known
  obtain ⟨collection', pattern'⟩ := next
  dsimp only
  split <;> simp only [Both, Fills, bind_eq_ok_iff, fillSlot_eq_ok, Equiv.refl_apply, pure,
    Except.pure]
  all_goals grind

def SliderDraft.columns : SliderDraft ≃ Option (Option Binary64) × Option (Option Binary64) ×
    Option (Option Binary64) × Option (Option Binary64) where
  toFun draft := (draft.default, draft.step, draft.least, draft.greatest)
  invFun := fun (default, step, least, greatest) => ⟨default, step, least, greatest⟩
  left_inv _ := rfl
  right_inv _ := rfl

theorem readSlider_agrees (reordered : ReorderedMembers all others) :
    Agrees (readSlider all) (readSlider others) := by
  have number (name : String) := blind_readFloat.optional.slot (· = name)
  refine (foldAttributes_agrees SliderDraft.columns (fun known key v next => ?_)
    ((number "defaultValue").both <| (number "step").both <| (number "min").both (number "max"))
    reordered {}).bind fun _ => Agrees.refl _
  obtain ⟨default, step, least, greatest⟩ := known
  obtain ⟨default', step', least', greatest'⟩ := next
  rw [SliderDraft.take.eq_def]
  dsimp only
  split <;> simp only [Both, Fills, bind_eq_ok_iff, fillSlot_eq_ok, SliderDraft.columns,
    Equiv.coe_fn_mk, pure, Except.pure]
  all_goals grind

theorem readKind_agrees (name : String) (reordered : ReorderedMembers all others) :
    Agrees (readKind name all) (readKind name others) := by
  have strings := readDefault_agrees blind_readString reordered
  rw [readKind.eq_def, readKind.eq_def]
  split
  case h_4 =>
    exact (readPair_agrees blind_readString blind_readString.list _ _ reordered).bind
      fun _ => Agrees.refl _
  case h_5 => exact readSelector_agrees reordered
  case h_6 =>
    exact (readPair_agrees blind_readProvider blind_readString _ _ reordered).bind
      fun _ => Agrees.refl _
  case h_7 => exact (readDefault_agrees blind_readBool reordered).bind fun _ => Agrees.refl _
  case h_10 =>
    exact (readPair_agrees blind_readString.list blind_readChoice.list _ _ reordered).bind
      fun _ => Agrees.refl _
  case h_11 => exact (readDefault_agrees blind_readTitle reordered).bind fun _ => Agrees.refl _
  case h_12 => exact readSlider_agrees reordered
  case h_14 => exact Agrees.refl _
  case h_8 | h_9 =>
    exact (readPair_agrees blind_readString blind_readChoice.list _ _ reordered).bind
      fun _ => Agrees.refl _
  all_goals exact strings.bind fun _ => Agrees.refl _

/-- The kind of a field is read from its members in any order. -/
theorem readFieldKind_agrees (reordered : ReorderedMembers all others) :
    Agrees (readFieldKind all) (readFieldKind others) := by
  rw [readFieldKind, readFieldKind]
  refine (readKindMember_agrees reordered).bind fun name => ?_
  exact readKind_agrees name (reordered.filter (· != "type"))

end BlockForge.Block
