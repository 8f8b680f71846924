/-
# Descriptions that were read from values

Whatever form a description is written in, with its members under other names or in an array,
what is read from a JSON value can be written again: the numbers of its sliders are finite, and
the sizes of its titles are of 64 bits. So a description that was accepted is read again from its
stored form, and it is the same.
-/

import BlockForge.Proofs.Block.Rereading
import BlockForge.Proofs.Json.Giving

namespace BlockForge

open BlockForge.Json

/-- A kind that JSON can hold: its numbers are finite, and the size of its title fits. -/
def FieldKind.IsJson (kind : FieldKind) : Prop :=
  kind.Fits ∧ ∀ number ∈ kind.numbers, number.isFinite

namespace Block

variable {α β : Type}

/-! ## Attributes -/

theorem readOptional_gives {p : α → Prop} {read : Value → Except Refusal α} {v : Value}
    (reads : Gives p (read v)) :
    Gives (fun found => ∀ a ∈ found, p a) (readOptional read v) := by
  rw [readOptional.eq_def]
  split
  · exact Gives.ok (by simp)
  · exact Gives.map (reads.mono (by simp))

theorem fillSlot_gives {p : α → Prop} {slot : Option α} {read : Except Refusal α}
    (reads : Gives p read) (key : String) :
    Gives (fun filled => ∀ a ∈ filled, p a) (fillSlot slot key read) := by
  rw [fillSlot.eq_def]
  split
  · exact Gives.error _
  · exact Gives.map (reads.mono (by simp))

theorem foldAttributes_gives {p : β → Prop} {step : β → String → Value → Except Refusal β}
    {attributes : Attributes} (keeps : ∀ known key v, p known → (key, v) ∈ attributes →
      Gives p (step known key v)) {start : β} (holds : p start) :
    Gives p (foldAttributes step start attributes) := by
  induction attributes generalizing start with
  | nil => exact Gives.ok holds
  | cons member rest ih =>
      obtain ⟨key, v⟩ := member
      rw [foldAttributes]
      refine (keeps start key v holds List.mem_cons_self).bind fun known kept => ?_
      exact ih (fun known key v holds among => keeps known key v holds (List.mem_cons_of_mem _ among))
        kept

theorem isFinite_ofInt {i : Int} (small : i.natAbs ≤ greatestUnsigned64) :
    (Binary64.ofInt i).isFinite := by
  obtain ⟨x, rounded⟩ := Magnitude.exists_ofNat?_of_fits small
  rw [Binary64.ofInt, rounded]
  rfl

theorem readFloat_gives {v : Value} (json : v.IsJson) :
    Gives (fun x => x.isFinite = true) (readFloat v) := by
  rw [readFloat.eq_def]
  split
  · exact Gives.ok (isFinite_ofInt json)
  · have fits : fitsSigned64 _ := json.2
    simp only [fitsSigned64, Bool.and_eq_true, decide_eq_true_eq] at fits
    refine Gives.ok (isFinite_ofInt ?_)
    rw [greatestUnsigned64]
    omega
  · exact Gives.ok json
  · exact Gives.error _

theorem fits_of_wholeInt64? {x : Binary64} {i : Int} (whole : wholeInt64? x = some i) :
    fitsSigned64 i := by
  rw [wholeInt64?.eq_def] at whole
  split at whole
  · split at whole
    · rename_i fits
      rw [← Option.some.inj whole]
      simp only [fitsSigned64, Bool.and_eq_true, decide_eq_true_eq] at fits ⊢
      omega
    · cases whole
  · cases whole

theorem readInteger_gives (v : Value) : Gives (fun i => fitsSigned64 i = true) (readInteger v) := by
  rw [readInteger.eq_def]
  split
  · split
    · exact Gives.ok ‹_›
    · exact Gives.error _
  · split
    · exact Gives.ok ‹_›
    · exact Gives.error _
  · split
    · rename_i whole
      exact Gives.ok (fits_of_wholeInt64? whole)
    · exact Gives.error _
  · exact Gives.error _

theorem TitleDraft.take_gives {draft : TitleDraft} (fits : ∀ size ∈ draft.size, fitsSigned64 size)
    (key : String) (v : Value) :
    Gives (fun next => ∀ size ∈ next.size, fitsSigned64 size) (draft.take key v) := by
  rw [TitleDraft.take.eq_def]
  split
  case h_8 =>
    refine (fillSlot_gives (readInteger_gives v) _).bind fun filled fits => ?_
    exact Gives.ok fits
  case h_9 => exact Gives.ok fits
  all_goals exact (Gives.anything _).bind fun _ _ => Gives.ok fits

theorem TitleDraft.fits_title {draft : TitleDraft}
    (fits : ∀ size ∈ draft.size, fitsSigned64 size) : fitsSigned64 draft.title.size := by
  rw [TitleDraft.title]
  cases size : draft.size with
  | none => rfl
  | some n => exact fits n size

theorem nextSlot_gives {p : α → Prop} {read : Value → Except Refusal α}
    (reads : ∀ v, Gives p (read v)) (items : List Value) :
    Gives (fun next => ∀ a ∈ next.1, p a) (nextSlot read items) := by
  cases items with
  | nil => exact Gives.ok (by simp)
  | cons v rest => exact Gives.map ((reads v).mono (by simp))

theorem readTitleItems_gives (items : List Value) :
    Gives (fun title => fitsSigned64 title.size = true) (readTitleItems items) := by
  rw [readTitleItems]
  iterate 7 refine (Gives.anything _).bind fun _ _ => ?_
  refine (nextSlot_gives readInteger_gives _).bind fun size fits => ?_
  dsimp only
  split
  · exact Gives.ok (TitleDraft.fits_title fits)
  · exact Gives.error _

theorem readTitle_gives (v : Value) :
    Gives (fun title => fitsSigned64 title.size = true) (readTitle v) := by
  rw [readTitle.eq_def]
  split
  · refine Gives.map (Gives.mono ?_ fun draft => draft.fits_title)
    exact foldAttributes_gives (fun draft key v fits _ => TitleDraft.take_gives fits key v) (by simp)
  · exact readTitleItems_gives _
  · exact Gives.error _

theorem readDefault_gives {p : α → Prop} {read : Value → Except Refusal α} {attributes : Attributes}
    (reads : ∀ key v, (key, v) ∈ attributes → Gives p (read v)) :
    Gives (fun default => ∀ a ∈ default, p a) (readDefault read attributes) := by
  rw [readDefault]
  have walk : Gives (fun slot => ∀ default ∈ slot, ∀ a ∈ default, p a)
      (foldAttributes (fun slot key value =>
        if key = "defaultValue" then fillSlot slot key (readOptional read value)
        else return slot) (none : Option (Option α)) attributes) := by
    refine foldAttributes_gives (fun slot key v holds among => ?_) (by simp)
    split
    · exact fillSlot_gives (readOptional_gives (reads key v among)) key
    · exact Gives.ok holds
  refine walk.bind fun slot holds => Gives.ok ?_
  cases slot with
  | none => simp
  | some default => exact holds default rfl

/-! ## Kinds -/

/-- A number of a slider is finite, if it is there and not null. -/
def Finite (slot : Option (Option Binary64)) : Prop :=
  ∀ number ∈ slot, ∀ x ∈ number, Binary64.isFinite x

theorem finite_none : Finite none := by simp [Finite]

theorem Finite.join {slot : Option (Option Binary64)} (finite : Finite slot) :
    ∀ x ∈ slot.join.toList, Binary64.isFinite x := by
  cases slot with
  | none => simp
  | some number => simpa using finite number rfl

/-- What is known of a slider are finite numbers. -/
structure SliderDraft.IsJson (draft : SliderDraft) : Prop where
  default : Finite draft.default
  step : Finite draft.step
  least : Finite draft.least
  greatest : Finite draft.greatest

theorem SliderDraft.take_gives {draft : SliderDraft} (json : draft.IsJson) (key : String) {v : Value}
    (number : v.IsJson) : Gives SliderDraft.IsJson (draft.take key v) := by
  have reads := readOptional_gives (readFloat_gives number)
  rw [SliderDraft.take.eq_def]
  dsimp only
  split
  case h_1 =>
    exact (fillSlot_gives reads _).bind fun _ finite => Gives.ok { json with default := finite }
  case h_2 =>
    exact (fillSlot_gives reads _).bind fun _ finite => Gives.ok { json with step := finite }
  case h_3 =>
    exact (fillSlot_gives reads _).bind fun _ finite => Gives.ok { json with least := finite }
  case h_4 =>
    exact (fillSlot_gives reads _).bind fun _ finite => Gives.ok { json with greatest := finite }
  case h_5 => exact Gives.ok json

section Kinds

variable {attributes : Attributes} (json : ∀ key v, (key, v) ∈ attributes → v.IsJson)

include json

theorem readSlider_gives : Gives FieldKind.IsJson (readSlider attributes) := by
  have walk : Gives SliderDraft.IsJson (foldAttributes SliderDraft.take {} attributes) :=
    foldAttributes_gives (fun draft key v known among => draft.take_gives known key (json key v among))
      ⟨finite_none, finite_none, finite_none, finite_none⟩
  rw [readSlider]
  refine walk.bind fun draft known => Gives.ok ⟨trivial, ?_⟩
  simp only [FieldKind.numbers, SliderRange.numbers, List.forall_mem_append]
  exact ⟨⟨⟨known.default.join, known.step.join⟩, known.least.join⟩, known.greatest.join⟩

theorem readKind_gives (name : String) : Gives FieldKind.IsJson (readKind name attributes) := by
  have plain {kind : FieldKind} (fits : kind.Fits) (none : kind.numbers = []) : kind.IsJson :=
    ⟨fits, by simp [none]⟩
  rw [readKind.eq_def]
  split
  case h_5 =>
    rw [readSelector]
    refine (Gives.anything _).bind fun known _ => ?_
    dsimp only
    split
    · exact Gives.ok (plain trivial rfl)
    · exact Gives.error _
    · exact Gives.error _
  case h_11 =>
    refine (readDefault_gives fun _ v _ => readTitle_gives v).bind fun default fits => ?_
    refine Gives.ok (plain ?_ rfl)
    cases default with
    | none => trivial
    | some title => exact fits title rfl
  case h_12 => exact readSlider_gives json
  case h_14 => exact Gives.error _
  all_goals exact (Gives.anything _).bind fun _ _ => Gives.ok (plain trivial rfl)

theorem readFieldKind_gives : Gives FieldKind.IsJson (readFieldKind attributes) := by
  rw [readFieldKind]
  refine (Gives.anything _).bind fun name _ => ?_
  exact readKind_gives (fun key v among => json key v (List.mem_of_mem_filter among)) name

end Kinds

/-! ## Fields, repeaters and descriptions -/

/-- What a field holds back are JSON values. -/
def FieldDraft.IsJson (draft : FieldDraft) : Prop := ∀ key v, (key, v) ∈ draft.held → v.IsJson

theorem FieldDraft.IsJson.take_gives {origin : Origin} {draft : FieldDraft} (held : draft.IsJson)
    (key : String) (standing : Nat) {node : Node} (json : node.IsJson) :
    Gives FieldDraft.IsJson (draft.take origin key standing node) := by
  rw [FieldDraft.take.eq_def]
  split
  case h_4 =>
    refine (node.value_gives origin json).bind fun v number => Gives.ok ?_
    intro other w among
    rcases List.mem_cons.mp among with same | earlier
    · rw [(Prod.mk.inj same).2]
      exact number
    · exact held other w earlier
  all_goals exact (Gives.anything _).bind fun _ _ => Gives.ok held

theorem FieldDraft.IsJson.field_gives {draft : FieldDraft} (held : draft.IsJson) (stop : Nat) :
    Gives (fun field => field.kind.IsJson) (draft.field stop) := by
  have reads : Gives FieldKind.IsJson (readFieldKind draft.held.reverse) :=
    readFieldKind_gives fun key v among => held key v (List.mem_reverse.mp among)
  rw [FieldDraft.field]
  refine (Gives.anything _).bind fun name _ => ?_
  refine (Gives.anything _).bind fun label _ => ?_
  split
  · rename_i kind read
    exact Gives.ok (reads kind read)
  · exact Gives.error _

theorem readField_gives (origin : Origin) {node : Node} (json : node.IsJson) :
    Gives (fun field => field.kind.IsJson) (readField origin node) := by
  rw [readField, Node.mapOnly.eq_def]
  split
  · refine (Gives.anything _).bind fun inner _ => ?_
    have walk : Gives (fun ending => ending.1.IsJson) (Members.fold (FieldDraft.take inner) {} _) :=
      Members.fold_gives (fun draft key standing node held json => held.take_gives key standing json)
        json (by simp [FieldDraft.IsJson])
    exact walk.bind fun ending held => held.field_gives ending.2
  · exact Gives.error _

theorem readFields_gives (origin : Origin) {node : Node} (json : node.IsJson) :
    Gives (fun fields => ∀ field ∈ fields, field.kind.IsJson) (readFields origin node) :=
  Node.list_gives (fun inner _ => readField_gives inner) origin json

def RepeaterDraft.IsJson (draft : RepeaterDraft) : Prop :=
  ∀ fields ∈ draft.fields, ∀ field ∈ fields, Field.kind field |>.IsJson

theorem RepeaterDraft.IsJson.take_gives {origin : Origin} {draft : RepeaterDraft}
    (known : draft.IsJson) (key : String) (standing : Nat) {node : Node} (json : node.IsJson) :
    Gives RepeaterDraft.IsJson (draft.take origin key standing node) := by
  rw [RepeaterDraft.take.eq_def]
  dsimp only
  split
  case h_4 =>
    exact (fill_gives (readFields_gives origin json) _ _).bind fun _ fields => Gives.ok fields
  all_goals exact (Gives.anything _).bind fun _ _ => Gives.ok known

theorem readRepeater_gives (origin : Origin) {node : Node} (json : node.IsJson) :
    Gives (fun repeater => ∀ field ∈ repeater.fields, field.kind.IsJson)
      (readRepeater origin node) := by
  rw [readRepeater, Node.record.eq_def]
  split
  · refine (Gives.anything _).bind fun inner _ => ?_
    rw [readRepeaterItems]
    have string (node : Node) (_ : node.IsJson) : Gives (fun _ => True) node.string :=
      Gives.anything _
    refine (Items.required_gives string json 0 _).bind fun label after => ?_
    refine (Items.required_gives string after.2 1 _).bind fun nameFrom after => ?_
    refine (Items.orDefault_gives (fun _ => readFields_gives inner) (by simp) after.2).bind
      fun fields after => ?_
    exact (Gives.anything _).bind fun _ _ => Gives.ok after.1
  · refine (Gives.anything _).bind fun inner _ => ?_
    have walk : Gives (fun ending => ending.1.IsJson)
        (Members.fold (RepeaterDraft.take inner) {} _) :=
      Members.fold_gives (fun draft key standing node known json =>
        known.take_gives key standing json) json (by simp [RepeaterDraft.IsJson])
    refine walk.bind fun ending known => ?_
    refine (Gives.anything _).bind fun label _ => ?_
    refine (Gives.anything _).bind fun nameFrom _ => Gives.ok ?_
    cases fields : ending.1.fields with
    | none => simp
    | some found => simpa using known found fields
  · exact Gives.error _

structure DescriptionDraft.IsJson (draft : DescriptionDraft) : Prop where
  fields : ∀ fields ∈ draft.fields, ∀ field ∈ fields, Field.kind field |>.IsJson
  repeater : ∀ found ∈ draft.repeater, ∀ repeater ∈ found,
    ∀ field ∈ Repeater.fields repeater, field.kind.IsJson

theorem DescriptionDraft.IsJson.take_gives {origin : Origin} {draft : DescriptionDraft}
    (known : draft.IsJson) (name : String) (standing : Nat) {node : Node} (json : node.IsJson) :
    Gives DescriptionDraft.IsJson (draft.take origin name standing node) := by
  rw [DescriptionDraft.take.eq_def]
  split
  · exact (Gives.anything _).bind fun _ _ => Gives.ok known
  · dsimp only
    split
    case h_9 =>
      exact (fill_gives (readFields_gives origin json) _ _).bind fun _ fields =>
        Gives.ok { known with fields := fields }
    case h_10 =>
      exact (fill_gives (Node.optional_gives (readRepeater_gives origin json)) _ _).bind
        fun _ repeater => Gives.ok { known with repeater := repeater }
    all_goals exact (Gives.anything _).bind fun _ _ => Gives.ok { known with }

theorem forall_allFields {block : Description} {p : Field → Prop}
    (fields : ∀ field ∈ block.fields, p field)
    (repeater : ∀ repeater ∈ block.repeater, ∀ field ∈ repeater.fields, p field) :
    ∀ field ∈ block.allFields, p field := by
  intro field held
  rcases List.mem_append.mp held with own | inner
  · exact fields field own
  · cases there : block.repeater with
    | none => simp [there] at inner
    | some found => exact repeater found there field (by simpa [there] using inner)

theorem readDescription_gives (origin : Origin) {node : Node} (json : node.IsJson) :
    Gives (fun block => ∀ field ∈ block.allFields, field.kind.IsJson)
      (readDescription origin node) := by
  rw [readDescription, Node.record.eq_def]
  split
  · refine (Gives.anything _).bind fun inner _ => ?_
    rw [readDescriptionItems]
    have string (node : Node) (_ : node.IsJson) : Gives (fun _ => True) node.string :=
      Gives.anything _
    have bool (node : Node) (_ : node.IsJson) : Gives (fun _ => True) node.bool := Gives.anything _
    have repeater (node : Node) (json : node.IsJson) :=
      Node.optional_gives (readRepeater_gives inner json)
    refine (Items.required_gives string json 0 _).bind fun blockName after => ?_
    refine (Items.required_gives string after.2 1 _).bind fun template after => ?_
    refine (Items.required_gives string after.2 2 _).bind fun code after => ?_
    refine (Items.required_gives string after.2 3 _).bind fun displayName after => ?_
    refine (Items.required_gives string after.2 4 _).bind fun about after => ?_
    refine (Items.orDefault_gives string trivial after.2).bind fun tab after => ?_
    refine (Items.orDefault_gives string trivial after.2).bind fun icon after => ?_
    refine (Items.required_gives bool after.2 7 _).bind fun hasRepeater after => ?_
    refine (Items.orDefault_gives (fun _ => readFields_gives inner) (by simp) after.2).bind
      fun fields after => ?_
    refine (Items.orDefault_gives repeater (by simp) after.2).bind fun found last => ?_
    exact (Gives.anything _).bind fun _ _ => Gives.ok (forall_allFields after.1 last.1)
  · refine (Gives.anything _).bind fun inner _ => ?_
    have walk : Gives (fun ending => ending.1.IsJson)
        (Members.fold (DescriptionDraft.take inner) {} _) :=
      Members.fold_gives (fun draft name standing node known json =>
        known.take_gives name standing json) json ⟨by simp, by simp⟩
    refine walk.bind fun ending known => ?_
    iterate 6 refine (Gives.anything _).bind fun _ _ => ?_
    refine Gives.ok (forall_allFields ?_ ?_)
    · cases fields : ending.1.fields with
      | none => simp
      | some found => simpa using known.fields found fields
    · cases repeater : ending.1.repeater with
      | none => simp
      | some found => simpa using known.repeater found repeater
  · exact Gives.error _

end Block

namespace Description

variable {block : Description} {v : Value}

theorem eq_of_accepted {read : Description} (accepted : read.accepted = .ok block) :
    read = block ∧ block.issues = [] := by
  rw [Description.accepted] at accepted
  split at accepted
  · rename_i valid
    obtain rfl := Except.ok.inj accepted
    exact ⟨rfl, List.isEmpty_iff.mp valid⟩
  · cases accepted

/-- What is accepted from a JSON value breaks no rule, and JSON can hold it. -/
theorem isJson_of_ofValue (json : v.IsJson) (accepted : ofValue v = .ok block) :
    block.issues = [] ∧ block.Fits ∧ ∀ number ∈ block.numbers, number.isFinite := by
  rw [ofValue.eq_def] at accepted
  split at accepted
  · rename_i read found
    obtain ⟨rfl, valid⟩ := eq_of_accepted accepted
    have fields := Block.readDescription_gives .stored (Node.isJson_ofValue v json) read found
    refine ⟨valid, fun field held => (fields field held).1, fun number held => ?_⟩
    obtain ⟨field, among, own⟩ := List.mem_flatMap.mp held
    exact (fields field among).2 number own
  · cases accepted

/-- The stored form of a description that breaks no rule is read as this description, if its
numbers are finite. So whatever value a description was accepted from, and in whatever form, it is
accepted again from its own stored form. -/
theorem stored_form_reads_back :
    (∀ block : Description, block.issues = [] → block.Fits →
      (∀ number ∈ block.numbers, number.isFinite) → ofValue block.value.canonical = .ok block) ∧
    ∀ (v : Value) (block : Description), v.IsJson → ofValue v = .ok block →
      ofValue block.value.canonical = .ok block := by
  have reads (block : Description) (valid : block.issues = []) (fits : block.Fits)
      (finite : ∀ number ∈ block.numbers, number.isFinite) :
      ofValue block.value.canonical = .ok block := by
    have same : block.withFloats id = block :=
      withFloats_eq_self_iff.mpr fun number held => ⟨finite number held, rfl⟩
    rw [ofValue_rearranged rearranging_canonical valid fits, same]
  refine ⟨reads, fun v block json accepted => ?_⟩
  obtain ⟨valid, fits, finite⟩ := isJson_of_ofValue json accepted
  exact reads block valid fits finite

/-- A block with a slider and a title. -/
def bannerBlock : Description where
  blockName := "Banner"
  template := "banner.tpl"
  code := "cpb_banner"
  displayName := "Banner"
  about := "A banner"
  tab := defaultTab
  icon := defaultIcon
  hasRepeater := false
  fields := [
    ⟨"width", "Width", none, .slider ⟨some (.ofInt 50), none, some (.ofInt 0), some (.ofInt 100)⟩⟩,
    ⟨"heading", "Heading", some true, .title (some { value := "Hello" })⟩]
  repeater := none

/-- The same block with members under their other names, members left out, and a title in an
array. -/
def bannerValue : Value :=
  .object [
    ("templateFilename", .string "banner.tpl"), ("blockName", .string "Banner"),
    ("displayName", .string "Banner"), ("code", .string "cpb_banner"),
    ("description", .string "A banner"), ("hasRepeater", .bool false),
    ("fields", .array [
      .object [
        ("max", .ofInt 100), ("min", .ofInt 0), ("defaultValue", .ofInt 50), ("name", .string "width"),
        ("type", .ofInt 11), ("label", .string "Width")],
      .object [
        ("name", .string "heading"), ("label", .string "Heading"),
        ("forceDefaultValue", .bool true), ("type", .string "title"),
        ("defaultValue", .array [.string "h2", .array [], .string "Hello"])]])]

theorem stored_form_reads_back_bannerBlock :
    (bannerBlock.issues = [] ∧ bannerBlock.Fits ∧ ∀ number ∈ bannerBlock.numbers, number.isFinite) ∧
    (bannerValue.IsJson ∧ ofValue bannerValue = .ok bannerBlock) ∧
    ofValue bannerBlock.value.canonical = .ok bannerBlock := by
  have valid : bannerBlock.issues = [] := by decide +kernel
  have fits : bannerBlock.Fits := by
    simp [Fits, allFields, bannerBlock, FieldKind.Fits, fitsSigned64]
  have finite : ∀ number ∈ bannerBlock.numbers, number.isFinite := by decide +kernel
  have json : bannerValue.IsJson := by
    simp [bannerValue, Value.IsJson, Value.Each, EachMember, EachItem, Value.ofInt, Number.ofInt,
      Number.IsJson, greatestUnsigned64]
  have accepted : ofValue bannerValue = .ok bannerBlock := by
    have read : Block.readDescription .stored (.ofValue bannerValue) = .ok bannerBlock := rfl
    rw [ofValue, read]
    show bannerBlock.accepted = _
    rw [Description.accepted, valid]
    rfl
  exact ⟨⟨valid, fits, finite⟩, ⟨json, accepted⟩,
    stored_form_reads_back.2 bannerValue bannerBlock json accepted⟩

end Description

end BlockForge
