/-
# Attributes read back

The attributes of a field are written for each kind by itself and read for each kind by itself.
Here the two are put together: from the attributes of a kind, in whatever order and with whatever
doubles stand for those of a slider, the kind is read again. A number of a slider that null stands
for is not there afterwards.
-/

import BlockForge.Block.Encoding
import BlockForge.Proofs.Json.Holding
import Mathlib.Data.List.Nodup

namespace BlockForge

/-! ## Other numbers -/

/-- A number of a slider with another finite double in its place. -/
def keptFloat (g : Binary64 → Binary64) (x : Option Binary64) : Option Binary64 :=
  (x.filter Binary64.isFinite).map g

theorem keptFloat_eq_bind (g : Binary64 → Binary64) (x : Option Binary64) :
    keptFloat g x = x.bind (Json.finiteOnly g) := by
  cases x with
  | none => rfl
  | some x => cases finite : x.isFinite <;> simp [keptFloat, Json.finiteOnly, Option.filter, finite]

def SliderRange.withFloats (g : Binary64 → Binary64) (range : SliderRange) : SliderRange :=
  ⟨keptFloat g range.default, keptFloat g range.step, keptFloat g range.least,
    keptFloat g range.greatest⟩

def FieldKind.withFloats (g : Binary64 → Binary64) : FieldKind → FieldKind
  | .slider range => .slider (range.withFloats g)
  | other => other

/-- A range with some numbers replaced and others left out. -/
def SliderRange.withNumbers (h : Binary64 → Option Binary64) (range : SliderRange) : SliderRange :=
  ⟨range.default.bind h, range.step.bind h, range.least.bind h, range.greatest.bind h⟩

def FieldKind.withNumbers (h : Binary64 → Option Binary64) : FieldKind → FieldKind
  | .slider range => .slider (range.withNumbers h)
  | other => other

theorem FieldKind.withFloats_eq_withNumbers (g : Binary64 → Binary64) (kind : FieldKind) :
    kind.withFloats g = kind.withNumbers (Json.finiteOnly g) := by
  cases kind
  case slider range =>
    simp only [withFloats, withNumbers, SliderRange.withFloats, SliderRange.withNumbers,
      keptFloat_eq_bind]
  all_goals rfl

/-- The size of a title is one of 64 bits. -/
def FieldKind.Fits : FieldKind → Prop
  | .title (some default) => fitsSigned64 default.size
  | _ => True

namespace Block

open BlockForge.Json

variable {α β γ δ : Type}

theorem mapM_eq_ok {read : Value → Except Refusal α} {values : List Value} {results : List α}
    (reads : List.Forall₂ (fun v a => read v = .ok a) values results) :
    values.mapM read = .ok results := by
  induction reads with
  | nil => rfl
  | cons first others ih =>
      rw [List.mapM_cons, first]
      show (do return _ :: (← List.mapM read _)) = _
      rw [ih]
      rfl

theorem fillSlot_none {read : Except Refusal α} {a : α} (reads : read = .ok a) (key : String) :
    fillSlot none key read = .ok (some a) := by
  rw [fillSlot, reads]
  rfl

/-- Readers of something else than null do not change where null may stand as well. -/
theorem readOptional_of_reads {read : Value → Except Refusal α} (refuses : ∀ a, read .null ≠ .ok a)
    {v : Value} {a : α} (reads : read v = .ok a) : readOptional read v = .ok (some a) := by
  rw [readOptional, reads]
  · rfl
  · rintro rfl
    exact refuses a reads

/-! ## Which attributes there are -/

def attributeNames : FieldKind → List String
  | .fileUpload .. => ["path", "defaultUrls"]
  | .selector .. => ["collection", "selector"]
  | .editor .. => ["provider", "defaultValue"]
  | .select .. => ["defaultValue", "choices"]
  | .radioGroup .. => ["defaultValue", "choices"]
  | .multiselect .. => ["defaultValue", "choices"]
  | .slider _ => ["defaultValue", "step", "min", "max"]
  | _ => ["defaultValue"]

theorem keysOf_optionalMember (key : String) (write : α → Value) (value : Option α) :
    (keysOf (optionalMember key write value)).Sublist [key] := by
  cases value with
  | none => exact List.nil_sublist _
  | some a => exact List.Sublist.refl _

theorem keysOf_optionalMembers {members : List (String × Value)} {names : List String}
    (among : (keysOf members).Sublist names) (key : String) (write : α → Value) (value : Option α) :
    (keysOf (members ++ optionalMember key write value)).Sublist (names ++ [key]) := by
  rw [keysOf, List.map_append]
  exact among.append (keysOf_optionalMember key write value)

theorem mem_optionalMember {key name : String} {write : α → Value} {value : Option α} {v : Value}
    (held : (name, v) ∈ optionalMember key write value) :
    ∃ a, value = some a ∧ name = key ∧ v = write a := by
  cases value with
  | none => cases held
  | some a =>
      obtain ⟨rfl, rfl⟩ := Prod.mk.inj (List.mem_singleton.mp held)
      exact ⟨a, rfl, rfl, rfl⟩

theorem keysOf_attributesOf (kind : FieldKind) :
    (keysOf (attributesOf kind)).Sublist (attributeNames kind) := by
  cases kind with
  | selector collection pattern => exact List.Sublist.refl _
  | fileUpload path urls => exact keysOf_optionalMembers (keysOf_optionalMember _ _ _) _ _ _
  | editor provider default => exact keysOf_optionalMembers (keysOf_optionalMember _ _ _) _ _ _
  | select default choices => exact keysOf_optionalMembers (keysOf_optionalMember _ _ _) _ _ _
  | radioGroup default choices => exact keysOf_optionalMembers (keysOf_optionalMember _ _ _) _ _ _
  | multiselect default choices => exact keysOf_optionalMembers (keysOf_optionalMember _ _ _) _ _ _
  | slider range =>
      exact keysOf_optionalMembers (keysOf_optionalMembers (keysOf_optionalMembers
        (keysOf_optionalMember _ _ _) _ _ _) _ _ _) _ _ _
  | _ => exact keysOf_optionalMember _ _ _

theorem mem_keysOf_optionalMember {value : Option α} (there : value.isSome) (key : String)
    (write : α → Value) : key ∈ keysOf (optionalMember key write value) := by
  obtain ⟨a, rfl⟩ := Option.isSome_iff_exists.mp there
  exact List.mem_cons_self

/-- No attribute has the name of another one or of a member that all fields have. -/
theorem attributeNames_nodup (kind : FieldKind) :
    (["name", "label", "forceDefaultValue", "type"] ++ attributeNames kind).Nodup := by
  cases kind <;> simp [attributeNames]

theorem attributesOf_nodup (kind : FieldKind) : (keysOf (attributesOf kind)).Nodup :=
  (List.nodup_append.mp (attributeNames_nodup kind)).2.1.sublist (keysOf_attributesOf kind)

/-! ## One attribute and two of them -/

variable {f : Value → Value} {attributes : Attributes}

theorem readDefault_eq {read : Value → Except Refusal α} (refuses : ∀ a, read .null ≠ .ok a)
    {write : α → Value} {default : Option α}
    (reads : ∀ a, default = some a → read (f (write a)) = .ok a)
    (perm : attributes.Perm (mapMembers f (optionalMember "defaultValue" write default))) :
    readDefault read attributes = .ok default := by
  rw [readDefault]
  apply foldAttributes_bind (fun done => slot done "defaultValue" default) rfl ?_
    (Rearranging.distinct_of_perm perm
      ((List.nodup_singleton _).sublist (keysOf_optionalMember _ _ _)))
  · rw [slot_of_perm perm, slot_join fun there => mem_keysOf_optionalMember there _ _]
    rfl
  · intro done key v held fresh
    obtain ⟨w, among, rfl⟩ := exists_of_perm perm held
    obtain ⟨a, there, rfl, rfl⟩ := mem_optionalMember among
    simp [slot_of_notMem fresh, slot_append, there,
      fillSlot_none (readOptional_of_reads refuses (reads a there))]

theorem readPair_eq {firstKey secondKey : String} (differ : firstKey ≠ secondKey)
    {readFirst : Value → Except Refusal α} (firstRefuses : ∀ a, readFirst .null ≠ .ok a)
    {readSecond : Value → Except Refusal β} (secondRefuses : ∀ b, readSecond .null ≠ .ok b)
    {writeFirst : α → Value} {writeSecond : β → Value} {one : Option α} {two : Option β}
    (readsFirst : ∀ a, one = some a → readFirst (f (writeFirst a)) = .ok a)
    (readsSecond : ∀ b, two = some b → readSecond (f (writeSecond b)) = .ok b)
    (perm : attributes.Perm (mapMembers f
      (optionalMember firstKey writeFirst one ++ optionalMember secondKey writeSecond two))) :
    readPair firstKey readFirst secondKey readSecond attributes = .ok (one, two) := by
  have distinct : (keysOf (optionalMember firstKey writeFirst one ++
      optionalMember secondKey writeSecond two)).Nodup := by
    apply List.Nodup.sublist (keysOf_optionalMembers (keysOf_optionalMember _ _ _) _ _ _)
    simp [differ]
  rw [readPair]
  apply foldAttributes_bind (fun done => (slot done firstKey one, slot done secondKey two)) rfl ?_
    (Rearranging.distinct_of_perm perm distinct)
  · rw [slot_of_perm perm, slot_of_perm perm]
    show Except.ok (Option.join _, Option.join _) = _
    rw [slot_join, slot_join]
    · intro there
      rw [keysOf, List.map_append]
      exact List.mem_append_right _ (mem_keysOf_optionalMember there _ _)
    · intro there
      rw [keysOf, List.map_append]
      exact List.mem_append_left _ (mem_keysOf_optionalMember there _ _)
  · intro done key v held fresh
    obtain ⟨w, among, rfl⟩ := exists_of_perm perm held
    rcases List.mem_append.mp among with first | second
    · obtain ⟨a, there, rfl, rfl⟩ := mem_optionalMember first
      simp [slot_of_notMem fresh, slot_append, there, differ.symm,
        fillSlot_none (readOptional_of_reads firstRefuses (readsFirst a there))]
    · obtain ⟨b, there, rfl, rfl⟩ := mem_optionalMember second
      simp [slot_of_notMem fresh, slot_append, there, differ, differ.symm,
        fillSlot_none (readOptional_of_reads secondRefuses (readsSecond b there))]

/-- The members of a kind: its name and its attributes. -/
def kindMembers (kind : FieldKind) : Attributes :=
  ("type", .string kind.name) :: attributesOf kind

theorem kindMembers_nodup (kind : FieldKind) : (keysOf (kindMembers kind)).Nodup := by
  have among : (keysOf (kindMembers kind)).Sublist
      (["name", "label", "forceDefaultValue", "type"] ++ attributeNames kind) :=
    (keysOf_attributesOf kind).cons_cons "type" |>.trans
      ((List.sublist_append_right ["name", "label", "forceDefaultValue"] _))
  exact (attributeNames_nodup kind).sublist among

theorem isSome_of_bind {x : Option α} {h : α → Option β} (kept : (x.bind h).isSome) :
    x.isSome := by
  cases x with
  | none => exact kept
  | some x => rfl

theorem attribute_ne_type {kind : FieldKind} {key : String} {v : Value}
    (own : (key, v) ∈ attributesOf kind) : key ≠ "type" := by
  rintro rfl
  have distinct := kindMembers_nodup kind
  rw [kindMembers, keysOf, List.map_cons, List.nodup_cons] at distinct
  exact distinct.1 (List.mem_map.mpr ⟨_, own, rfl⟩)

section Kinds

variable {h : Binary64 → Option Binary64} (keeping : Keeping h f)

include keeping

/-! ## Parts of attributes -/

theorem read_string (s : String) : readString (f (.string s)) = .ok s := by
  rw [keeping.string]
  rfl

theorem read_bool (b : Bool) : readBool (f (.bool b)) = .ok b := by
  rw [keeping.bool]
  rfl

theorem read_strings (texts : List String) :
    readList readString (f (stringArray texts)) = .ok texts := by
  rw [stringArray, keeping.array, readList]
  apply mapM_eq_ok
  rw [List.forall₂_map_left_iff, List.forall₂_map_left_iff]
  exact List.forall₂_same.mpr fun text _ => read_string keeping text

theorem read_integer {i : Int} (fits : fitsSigned64 i) : readInteger (f (.ofInt i)) = .ok i := by
  rcases keeping.integer i with plain | signed
  · rw [plain, Value.ofInt, Number.ofInt]
    split
    · rw [readInteger, if_pos fits]
    · have same : (i.natAbs : Int) = i := by omega
      rw [readInteger, same, if_pos fits]
  · rw [signed, readInteger, if_pos fits]

theorem read_choice (choice : Choice) : readChoice (f (choiceValue choice)) = .ok choice := by
  cases choice with
  | plain text =>
      rw [choiceValue, keeping.string]
      rfl
  | labeled id label =>
      have keys : (keysOf [("id", Value.string id), ("label", .string label)]).Nodup := by simp
      obtain ⟨members, changed, perm⟩ := keeping.object _ keys
      have labeled : readLabeled members = .ok (.labeled id label) := by
        rw [readLabeled]
        apply foldAttributes_bind (fun done => (slot done "id" id, slot done "label" label)) rfl ?_
          (Rearranging.distinct_of_perm perm keys)
        · rw [slot_of_perm perm, slot_of_perm perm]
          rfl
        · intro done key v held fresh
          obtain ⟨w, among, rfl⟩ := exists_of_perm perm held
          simp only [List.mem_cons, Prod.mk.injEq, List.not_mem_nil, or_false] at among
          rcases among with ⟨rfl, rfl⟩ | ⟨rfl, rfl⟩
          · simp [slot_of_notMem fresh, slot_append, fillSlot_none (read_string keeping id)]
          · simp [slot_of_notMem fresh, slot_append, fillSlot_none (read_string keeping label)]
      rw [choiceValue, changed, readChoice, labeled]

theorem read_choices (choices : List Choice) :
    readList readChoice (f (choicesValue choices)) = .ok choices := by
  rw [choicesValue, keeping.array, readList]
  apply mapM_eq_ok
  rw [List.forall₂_map_left_iff, List.forall₂_map_left_iff]
  exact List.forall₂_same.mpr fun choice _ => read_choice keeping choice

theorem read_provider (provider : EditorProvider) :
    readProvider (f (.string provider.name)) = .ok provider := by
  rw [keeping.string]
  cases provider
  rfl

theorem read_title {title : TitleDefault} (fits : fitsSigned64 title.size) :
    readTitle (f (titleValue title)) = .ok title := by
  have keys : (keysOf [("tag", Value.string title.tag), ("classes", stringArray title.classes),
      ("value", .string title.value), ("focus", .bool title.focus), ("bold", .bool title.bold),
      ("italic", .bool title.italic), ("underline", .bool title.underline),
      ("size", .ofInt title.size)]).Nodup := by simp
  obtain ⟨members, changed, perm⟩ := keeping.object _ keys
  have walked := @foldAttributes_known _ TitleDraft.take
    (fun done => {
      tag := slot done "tag" title.tag
      classes := slot done "classes" title.classes
      value := slot done "value" title.value
      focus := slot done "focus" title.focus
      bold := slot done "bold" title.bold
      italic := slot done "italic" title.italic
      underline := slot done "underline" title.underline
      size := slot done "size" title.size }) members ?_ (Rearranging.distinct_of_perm perm keys)
  · rw [titleValue, changed, readTitle]
    show (foldAttributes TitleDraft.take {} members).map (·.title) = _
    simp only [slot_nil] at walked
    rw [walked]
    simp only [slot_of_perm perm]
    rfl
  · intro done key v held fresh
    obtain ⟨w, among, rfl⟩ := exists_of_perm perm held
    simp only [List.mem_cons, Prod.mk.injEq, List.not_mem_nil, or_false] at among
    rcases among with ⟨rfl, rfl⟩ | ⟨rfl, rfl⟩ | ⟨rfl, rfl⟩ | ⟨rfl, rfl⟩ | ⟨rfl, rfl⟩ | ⟨rfl, rfl⟩ |
      ⟨rfl, rfl⟩ | ⟨rfl, rfl⟩
    all_goals
      simp [TitleDraft.take, slot_of_notMem fresh, slot_append, fillSlot, read_string keeping,
        read_strings keeping, read_bool keeping, read_integer keeping fits, Except.map]

theorem read_float (x : Binary64) :
    readOptional readFloat (f (.ofFloat x)) = .ok (h x) := by
  rw [keeping.float]
  cases h x <;> rfl

/-! ## Attributes of one kind -/

theorem readSelector_eq {collection pattern : String}
    (perm : attributes.Perm (mapMembers f (attributesOf (.selector collection pattern)))) :
    readSelector attributes = .ok (.selector collection pattern) := by
  rw [readSelector]
  apply foldAttributes_bind
    (fun done => (slot done "collection" collection, slot done "selector" pattern)) rfl ?_
    (Rearranging.distinct_of_perm perm (attributesOf_nodup _))
  · rw [slot_of_perm perm, slot_of_perm perm]
    rfl
  · intro done key v held fresh
    obtain ⟨w, among, rfl⟩ := exists_of_perm perm held
    simp only [attributesOf, List.mem_cons, Prod.mk.injEq, List.not_mem_nil, or_false] at among
    rcases among with ⟨rfl, rfl⟩ | ⟨rfl, rfl⟩
    · simp [slot_of_notMem fresh, slot_append, fillSlot_none (read_string keeping collection)]
    · simp [slot_of_notMem fresh, slot_append, fillSlot_none (read_string keeping pattern)]

theorem readSlider_eq {range : SliderRange}
    (perm : attributes.Perm (mapMembers f (attributesOf (.slider range)))) :
    readSlider attributes = .ok (.slider (range.withNumbers h)) := by
  let known (done : Attributes) : SliderDraft := {
    default := slot done "defaultValue" (range.default.bind h)
    step := slot done "step" (range.step.bind h)
    least := slot done "min" (range.least.bind h)
    greatest := slot done "max" (range.greatest.bind h) }
  rw [readSlider]
  apply foldAttributes_bind known rfl ?_
    (Rearranging.distinct_of_perm perm (attributesOf_nodup _))
  · simp only [known, slot_of_perm perm]
    show Except.ok (FieldKind.slider ⟨Option.join _, Option.join _, Option.join _, Option.join _⟩) = _
    rw [slot_join, slot_join, slot_join, slot_join]
    · rfl
    all_goals
      intro kept
      have there := mem_keysOf_optionalMember (isSome_of_bind kept)
      simp only [attributesOf, keysOf, List.map_append, List.mem_append]
    · exact .inr (there _ _)
    · exact .inl (.inr (there _ _))
    · exact .inl (.inl (.inr (there _ _)))
    · exact .inl (.inl (.inl (there _ _)))
  · intro done key v held fresh
    obtain ⟨w, among, rfl⟩ := exists_of_perm perm held
    simp only [attributesOf, List.mem_append] at among
    rcases among with ((default | step) | least) | greatest
    · obtain ⟨a, there, rfl, rfl⟩ := mem_optionalMember default
      simp [known, SliderDraft.take, slot_of_notMem fresh, slot_append, there,
        fillSlot_none (read_float keeping a)]
    · obtain ⟨a, there, rfl, rfl⟩ := mem_optionalMember step
      simp [known, SliderDraft.take, slot_of_notMem fresh, slot_append, there,
        fillSlot_none (read_float keeping a)]
    · obtain ⟨a, there, rfl, rfl⟩ := mem_optionalMember least
      simp [known, SliderDraft.take, slot_of_notMem fresh, slot_append, there,
        fillSlot_none (read_float keeping a)]
    · obtain ⟨a, there, rfl, rfl⟩ := mem_optionalMember greatest
      simp [known, SliderDraft.take, slot_of_notMem fresh, slot_append, there,
        fillSlot_none (read_float keeping a)]

/-- The attributes of a kind are read as that kind with other numbers. -/
theorem readKind_eq {kind : FieldKind} (fits : kind.Fits)
    (perm : attributes.Perm (mapMembers f (attributesOf kind))) :
    readKind kind.name attributes = .ok (kind.withNumbers h) := by
  have string (s : String) := read_string keeping s
  have strings (texts : List String) := read_strings keeping texts
  have choices (choices : List Choice) := read_choices keeping choices
  cases kind with
  | text default | color default | textarea default | datepicker default =>
      have read := readDefault_eq (by simp [readString]) (fun s _ => string s) perm
      simp [readKind, FieldKind.name, read, FieldKind.withNumbers]
  | checkbox default =>
      have read := readDefault_eq (by simp [readBool]) (fun b _ => read_bool keeping b) perm
      simp [readKind, FieldKind.name, read, FieldKind.withNumbers]
  | title default =>
      have read := readDefault_eq (by simp [readTitle])
        (fun title there => read_title keeping (by subst there; exact fits)) perm
      simp [readKind, FieldKind.name, read, FieldKind.withNumbers]
  | fileUpload path urls =>
      have read := readPair_eq (by decide) (by simp [readString]) (by simp [readList])
        (fun s _ => string s) (fun texts _ => strings texts) perm
      simp [readKind, FieldKind.name, read, FieldKind.withNumbers]
  | editor provider default =>
      have read := readPair_eq (by decide) (by simp [readProvider]) (by simp [readString])
        (fun provider _ => read_provider keeping provider) (fun s _ => string s) perm
      simp [readKind, FieldKind.name, read, FieldKind.withNumbers]
  | select default options | radioGroup default options =>
      have read := readPair_eq (by decide) (by simp [readString]) (by simp [readList])
        (fun s _ => string s) (fun options _ => choices options) perm
      simp [readKind, FieldKind.name, read, FieldKind.withNumbers]
  | multiselect default options =>
      have read := readPair_eq (by decide) (by simp [readList]) (by simp [readList])
        (fun texts _ => strings texts) (fun options _ => choices options) perm
      simp [readKind, FieldKind.name, read, FieldKind.withNumbers]
  | selector collection pattern =>
      simp [readKind, FieldKind.name, readSelector_eq keeping perm, FieldKind.withNumbers]
  | slider range =>
      simp [readKind, FieldKind.name, readSlider_eq keeping perm, FieldKind.withNumbers]

theorem readKindMember_eq {kind : FieldKind}
    (perm : attributes.Perm (mapMembers f (kindMembers kind))) :
    readKindMember attributes = .ok kind.name := by
  have known : readKindName (f (.string kind.name)) = .ok kind.name := by
    rw [keeping.string]
    cases kind <;> rfl
  rw [readKindMember]
  apply foldAttributes_bind (fun done => slot done "type" kind.name) rfl ?_
    (Rearranging.distinct_of_perm perm (kindMembers_nodup kind))
  · have named : "type" ∈ keysOf (kindMembers kind) := List.mem_cons_self
    rw [slot_of_perm perm, slot, if_pos named]
    rfl
  · intro done key v held fresh
    obtain ⟨w, among, rfl⟩ := exists_of_perm perm held
    rcases List.mem_cons.mp among with name | own
    · obtain ⟨rfl, rfl⟩ := Prod.mk.inj name
      simp [slot_of_notMem fresh, slot_append, fillSlot_none known]
    · have other : key ≠ "type" := attribute_ne_type own
      simp [slot_append, other, other.symm, pure, Except.pure]

/-- The members of a kind are read as that kind with other numbers, wherever its name stands. -/
theorem readFieldKind_eq {kind : FieldKind} (fits : kind.Fits)
    (perm : attributes.Perm (mapMembers f (kindMembers kind))) :
    readFieldKind attributes = .ok (kind.withNumbers h) := by
  rw [readFieldKind, readKindMember_eq keeping perm]
  apply readKind_eq keeping fits
  have others : (mapMembers f (kindMembers kind)).filter (·.1 != "type") =
      mapMembers f (attributesOf kind) := by
    rw [kindMembers, mapMembers, List.map_cons, List.filter_cons_of_neg (by simp),
      List.filter_eq_self]
    intro member held
    obtain ⟨⟨key, v⟩, own, rfl⟩ := List.mem_map.mp held
    simpa using attribute_ne_type own
  rw [← others]
  exact perm.filter _

end Kinds

end Block

end BlockForge
