/-
# The rules of a description, and the checks that find what breaks them

The rules say of every place of a description what may not stand there. They are stated without
the checks: which names are formed as they have to be is told by patterns, and a rule for the items
of a list holds of each of them. Of every check it is shown that it reports those places in the
value it checks at which a rule is broken, in their order and no others.
-/

import BlockForge.Proofs.Block.Descriptions
import BlockForge.Proofs.Json.Place
import BlockForge.Proofs.Text.Pattern

namespace BlockForge

open BlockForge.Block BlockForge.Json

variable {α : Type}

/-! ## The rules -/

/-- An option breaks a rule at a place inside it. -/
inductive Choice.Breaks : Choice → List Segment → Prop where
  /-- An option with a label of its own has an identifier. -/
  | id (label : String) : Breaks (.labeled "" label) [.key "id"]
  | label (id : String) : Breaks (.labeled id "") [.key "label"]

/-- An item of a list breaks a rule at a place inside the list. -/
inductive Among (breaks : α → List Segment → Prop) (items : List α) : List Segment → Prop where
  | item {position : Nat} {item : α} {place : List Segment} (held : items[position]? = some item)
      (broken : breaks item place) : Among breaks items (.index position :: place)

def FieldKind.choices : FieldKind → List Choice
  | .select _ choices | .radioGroup _ choices | .multiselect _ choices => choices.getD []
  | _ => []

/-- What only one kind of field has breaks a rule at a place inside the field. -/
inductive FieldKind.Breaks : FieldKind → List Segment → Prop where
  | collection (pattern : String) : Breaks (.selector "" pattern) [.key "collection"]
  | pattern (collection : String) : Breaks (.selector collection "") [.key "selector"]
  | choices {kind : FieldKind} {place : List Segment}
      (broken : Among Choice.Breaks kind.choices place) : Breaks kind (.key "choices" :: place)
  /-- The default of a title has an element. -/
  | titleTag {title : TitleDefault} (empty : title.tag = "") :
      Breaks (.title (some title)) [.key "defaultValue", .key "tag"]

/-- A field breaks a rule at a place inside it. -/
inductive Field.Breaks (field : Field) : List Segment → Prop where
  | name (malformed : field.name.toList ∉ Pattern.fieldName.matches') : Breaks field [.key "name"]
  | label (empty : field.label = "") : Breaks field [.key "label"]
  | kind {place : List Segment} (broken : field.kind.Breaks place) : Breaks field place

/-- A repeater breaks a rule at a place inside it. -/
inductive Repeater.Breaks (repeater : Repeater) : List Segment → Prop where
  | label (empty : repeater.label = "") : Breaks repeater [.key "nameLabel"]
  | nameFrom (empty : repeater.nameFrom = "") : Breaks repeater [.key "nameFrom"]
  | noFields (none : repeater.fields = []) : Breaks repeater [.key "fields"]
  | fields {place : List Segment} (broken : Among Field.Breaks repeater.fields place) :
      Breaks repeater (.key "fields" :: place)

/-- A description breaks a rule at a place. The rules for what is inside a repeater are asked of
the repeater that they govern, if there is one. -/
inductive Description.Breaks (block : Description) (governed : Option Repeater) :
    List Segment → Prop where
  | blockName (malformed : block.blockName.toList ∉ Pattern.blockName.matches') :
      Breaks block governed [.key "blockName"]
  | template (malformed : block.template.toList ∉ Pattern.template.matches') :
      Breaks block governed [.key "tplFilename"]
  | code (malformed : block.code.toList ∉ Pattern.code.matches') :
      Breaks block governed [.key "code"]
  | displayName (empty : block.displayName = "") : Breaks block governed [.key "nameLabel"]
  | about (empty : block.about = "") : Breaks block governed [.key "description"]
  | fields {place : List Segment} (broken : Among Field.Breaks block.fields place) :
      Breaks block governed (.key "fields" :: place)
  /-- There is a repeater exactly if it is announced. -/
  | announced (disagree : ¬ (block.hasRepeater = true ↔ block.repeater.isSome)) :
      Breaks block governed [.key "repeater"]
  | repeater {repeater : Repeater} {place : List Segment} (held : governed = some repeater)
      (broken : repeater.Breaks place) : Breaks block governed (.key "repeater" :: place)

/-! ## Single values -/

abbrev pathsOf (issues : List Issue) : List (List Segment) := issues.map Issue.path

variable {path place : List Segment} {text : String}

theorem pathsOf_append (front back : List Issue) :
    pathsOf (front ++ back) = pathsOf front ++ pathsOf back :=
  List.map_append

theorem pathsOf_reportIf (broken : Bool) (path : List Segment) (problem : Problem) :
    pathsOf (reportIf broken path problem) = if broken then [path] else [] := by
  cases broken <;> rfl

theorem pathsOf_checkPresent (path : List Segment) (missing : Problem) (text : String) :
    pathsOf (checkPresent path missing text) = if text = "" then [path] else [] := by
  simp [checkPresent, pathsOf_reportIf]

/-- A text is reported if it does not have its form, and the empty one does not. -/
theorem pathsOf_checkForm {form : List Char → Bool} (rejects : form [] = false)
    (path : List Segment) (missing malformed : Problem) (text : String) :
    pathsOf (checkForm form path missing malformed text) =
      if form text.toList then [] else [path] := by
  rw [checkForm]
  by_cases empty : text = ""
  · simp [empty, rejects]
  · cases formed : form text.toList <;> simp [empty, pathsOf_reportIf]

theorem mem_checkPresent {missing : Problem} :
    place ∈ pathsOf (checkPresent path missing text) ↔ text = "" ∧ path = place := by
  rw [pathsOf_checkPresent]
  split <;> simp_all [eq_comm]

theorem mem_checkForm {form : List Char → Bool} {pattern : RegularExpression Char}
    (tells : ∀ text, form text ↔ text ∈ pattern.matches') (rejects : form [] = false)
    {missing malformed : Problem} : place ∈ pathsOf (checkForm form path missing malformed text) ↔
      text.toList ∉ pattern.matches' ∧ path = place := by
  rw [pathsOf_checkForm rejects, ← tells]
  cases form text.toList <;> simp [eq_comm]

theorem reportIf_sublist (broken : Bool) (path : List Segment) (problem : Problem) :
    (pathsOf (reportIf broken path problem)).Sublist [path] := by
  rw [pathsOf_reportIf]
  split <;> simp

theorem checkPresent_sublist (path : List Segment) (missing : Problem) (text : String) :
    (pathsOf (checkPresent path missing text)).Sublist [path] :=
  reportIf_sublist _ path missing

theorem checkForm_sublist (form : List Char → Bool) (path : List Segment)
    (missing malformed : Problem) (text : String) :
    (pathsOf (checkForm form path missing malformed text)).Sublist [path] := by
  rw [checkForm]
  split
  · exact List.Sublist.refl _
  · exact reportIf_sublist _ path malformed

/-! ## Checks -/

/-- A check reports the places inside an item at which the item breaks a rule, in their order. -/
structure Finds (check : List Segment → α → List Issue) (breaks : α → List Segment → Prop)
    (places : α → List (List Segment)) : Prop where
  ordered : ∀ path item, (pathsOf (check path item)).Sublist ((places item).map (path ++ ·))
  mem_iff : ∀ path item place,
    place ∈ pathsOf (check path item) ↔ ∃ inner, breaks item inner ∧ path ++ inner = place

/-- Places inside a part, seen from the whole. -/
theorem map_under (path : List Segment) (step : Segment) (places : List (List Segment)) :
    (places.map (step :: ·)).map (path ++ ·) = places.map ((path ++ [step]) ++ ·) := by
  simp

/-- What is found in each item is found in a list of them. -/
theorem Finds.each {check : List Segment → α → List Issue} {breaks : α → List Segment → Prop}
    {write : α → Value} (finds : Finds check breaks fun item => (write item).places) :
    Finds (checkEach check) (Among breaks) fun items => placesOfItems 0 (items.map write) where
  ordered path items := by
    -- The position of the first item grows on the way through the list.
    have onwards (position : Nat) : (pathsOf ((items.zipIdx position).flatMap
        fun (item, position) => check (path ++ [.index position]) item)).Sublist
          ((placesOfItems position (items.map write)).map (path ++ ·)) := by
      induction items generalizing position with
      | nil => exact List.Sublist.refl _
      | cons item rest ih =>
          rw [List.zipIdx_cons, List.flatMap_cons, pathsOf_append, List.map_cons, placesOfItems,
            List.map_append, map_under]
          exact (finds.ordered _ item).append (ih (position + 1))
    exact onwards 0
  mem_iff path items place := by
    simp only [checkEach, List.map_flatMap, List.mem_flatMap, Prod.exists,
      List.mk_mem_zipIdx_iff_getElem?, finds.mem_iff]
    constructor
    · rintro ⟨item, position, held, inner, broken, rfl⟩
      exact ⟨_, .item held broken, by simp⟩
    · rintro ⟨_, ⟨held, broken⟩, rfl⟩
      exact ⟨_, _, held, _, broken, by simp⟩

theorem finds_choice :
    Finds checkChoice Choice.Breaks fun choice => (choiceValue choice).places where
  ordered path choice := by
    cases choice with
    | plain text => exact List.nil_sublist _
    | labeled id label =>
        rw [checkChoice, pathsOf_append]
        exact ((checkPresent_sublist _ _ id).append (checkPresent_sublist _ _ label)).cons _
  mem_iff path choice place := by
    cases choice with
    | plain text =>
        refine iff_of_false List.not_mem_nil ?_
        rintro ⟨_, broken, -⟩
        cases broken
    | labeled id label =>
        rw [checkChoice, pathsOf_append, List.mem_append, mem_checkPresent, mem_checkPresent]
        constructor
        · rintro (⟨rfl, rfl⟩ | ⟨rfl, rfl⟩)
          · exact ⟨_, .id label, rfl⟩
          · exact ⟨_, .label id, rfl⟩
        · rintro ⟨_, _ | _, rfl⟩
          · exact .inl ⟨rfl, rfl⟩
          · exact .inr ⟨rfl, rfl⟩

theorem finds_choices : Finds checkChoices (fun choices place => ∃ inner,
    Among Choice.Breaks (choices.getD []) inner ∧ .key "choices" :: inner = place)
    fun choices => placesOfMembers (optionalMember "choices" choicesValue choices) where
  ordered path choices := by
    cases choices with
    | none => exact List.nil_sublist _
    | some choices =>
        rw [optionalMember, placesOfMembers, placesOfMembers, List.append_nil, map_under]
        exact (finds_choice.each.ordered _ choices).cons _
  mem_iff path choices place := by
    rw [checkChoices, finds_choice.each.mem_iff]
    constructor
    · rintro ⟨inner, broken, rfl⟩
      exact ⟨_, ⟨inner, broken, rfl⟩, by simp⟩
    · rintro ⟨_, ⟨inner, broken, rfl⟩, rfl⟩
      exact ⟨inner, broken, by simp⟩

theorem not_among_nil {breaks : α → List Segment → Prop} : ¬ Among breaks [] place := by
  rintro ⟨held, -⟩
  cases held

/-- Only options, the attributes of a selector and the default of a title have rules. -/
theorem FieldKind.breaks_iff {kind : FieldKind} : kind.Breaks place ↔
    (∃ inner, Among Choice.Breaks kind.choices inner ∧ .key "choices" :: inner = place) ∨
    (∃ collection pattern, kind = .selector collection pattern ∧
      (collection = "" ∧ [.key "collection"] = place ∨
        pattern = "" ∧ [.key "selector"] = place)) ∨
    ∃ title, kind = .title (some title) ∧ title.tag = "" ∧
      [.key "defaultValue", .key "tag"] = place := by
  constructor
  · rintro (pattern | collection | ⟨broken⟩ | ⟨empty⟩)
    · exact .inr (.inl ⟨_, _, rfl, .inl ⟨rfl, rfl⟩⟩)
    · exact .inr (.inl ⟨_, _, rfl, .inr ⟨rfl, rfl⟩⟩)
    · exact .inl ⟨_, broken, rfl⟩
    · exact .inr (.inr ⟨_, rfl, empty, rfl⟩)
  · rintro (⟨inner, broken, rfl⟩ | ⟨_, _, rfl, ⟨rfl, rfl⟩ | ⟨rfl, rfl⟩⟩ | ⟨title, rfl, empty, rfl⟩)
    · exact .choices broken
    · exact .collection _
    · exact .pattern _
    · exact .titleTag empty

theorem finds_kind :
    Finds checkKind FieldKind.Breaks fun kind => placesOfMembers (attributesOf kind) where
  ordered path kind := by
    cases kind with
    | selector collection pattern =>
        rw [checkKind, pathsOf_append]
        exact (checkPresent_sublist _ _ collection).append (checkPresent_sublist _ _ pattern)
    | select default choices | radioGroup default choices | multiselect default choices =>
        rw [attributesOf, placesOfMembers_append, List.map_append]
        exact (finds_choices.ordered path choices).trans (List.sublist_append_right _ _)
    | title default =>
        cases default with
        | none => exact List.nil_sublist _
        | some title =>
            refine ((checkPresent_sublist _ _ title.tag).trans ?_).cons _
            simp [Value.places, placesOfMembers]
    | _ => exact List.nil_sublist _
  mem_iff path kind place := by
    cases kind with
    | selector collection pattern =>
        rw [checkKind, pathsOf_append, List.mem_append, mem_checkPresent, mem_checkPresent]
        constructor
        · rintro (⟨rfl, rfl⟩ | ⟨rfl, rfl⟩)
          · exact ⟨_, .collection pattern, rfl⟩
          · exact ⟨_, .pattern collection, rfl⟩
        · rintro ⟨_, _ | _ | broken, rfl⟩
          · exact .inl ⟨rfl, rfl⟩
          · exact .inr ⟨rfl, rfl⟩
          · exact absurd broken not_among_nil
    | select default choices | radioGroup default choices | multiselect default choices =>
        rw [checkKind, finds_choices.mem_iff]
        simp [FieldKind.breaks_iff, FieldKind.choices]
    | title default =>
        cases default with
        | none =>
          simp [checkKind, FieldKind.breaks_iff, FieldKind.choices, not_among_nil]
        | some title =>
            rw [checkKind, mem_checkPresent]
            simp [FieldKind.breaks_iff, FieldKind.choices, not_among_nil]
    | _ => simp [checkKind, FieldKind.breaks_iff, FieldKind.choices, not_among_nil]

theorem finds_field : Finds checkField Field.Breaks fun field => (fieldValue field).places where
  ordered path field := by
    rw [checkField, pathsOf_append, pathsOf_append]
    show List.Sublist _ (([] :: placesOfMembers (fieldMembers field)).map (path ++ ·))
    rw [fieldMembers, kindMembers, placesOfMembers_append, placesOfMembers_append, placesOfMembers,
      List.map_cons, List.map_append, List.map_append, List.map_append]
    have own := (finds_kind.ordered path field.kind).trans (List.sublist_append_right
      (([Segment.key "type"] :: []).map (path ++ ·)) _)
    have common := (checkForm_sublist isSnakeName (path ++ [.key "name"]) .fieldNameMissing
      .fieldNameNotSnake field.name).append
        (checkPresent_sublist (path ++ [.key "label"]) .labelMissing field.label)
    exact ((common.trans (List.sublist_append_left _ _)).append own).cons _
  mem_iff path field place := by
    rw [checkField, pathsOf_append, pathsOf_append, List.mem_append, List.mem_append,
      mem_checkForm (fun _ => Pattern.isSnakeName_iff) rfl, mem_checkPresent, finds_kind.mem_iff]
    constructor
    · rintro ((⟨malformed, rfl⟩ | ⟨empty, rfl⟩) | ⟨inner, broken, rfl⟩)
      · exact ⟨_, .name malformed, rfl⟩
      · exact ⟨_, .label empty, rfl⟩
      · exact ⟨inner, .kind broken, rfl⟩
    · rintro ⟨inner, malformed | empty | broken, rfl⟩
      · exact .inl (.inl ⟨malformed, rfl⟩)
      · exact .inl (.inr ⟨empty, rfl⟩)
      · exact .inr ⟨inner, broken, rfl⟩

/-- What is checked in a repeater that is there and announced. -/
def checkActive (path : List Segment) (repeater : Repeater) : List Issue :=
  checkPresent (path ++ [.key "nameLabel"]) .repeaterLabelMissing repeater.label
    ++ checkPresent (path ++ [.key "nameFrom"]) .nameFromMissing repeater.nameFrom
    ++ reportIf repeater.fields.isEmpty (path ++ [.key "fields"]) .repeaterFieldsMissing
    ++ checkEach checkField (path ++ [.key "fields"]) repeater.fields

theorem checkRepeater_active (repeater : Repeater) :
    checkRepeater true (some repeater) = checkActive [.key "repeater"] repeater :=
  rfl

theorem finds_fields : Finds (checkEach checkField) (Among Field.Breaks) fun fields =>
    (fieldsValue fields).places where
  ordered path fields := (finds_field.each.ordered path fields).cons _
  mem_iff := finds_field.each.mem_iff

theorem finds_repeater :
    Finds checkActive Repeater.Breaks fun repeater => (repeaterValue repeater).places where
  ordered path repeater := by
    obtain ⟨label, nameFrom, fields⟩ := repeater
    have names := (checkPresent_sublist (path ++ [.key "nameLabel"]) .repeaterLabelMissing
      label).append (checkPresent_sublist (path ++ [.key "nameFrom"]) .nameFromMissing nameFrom)
    -- An empty list of fields is reported at its own place, the fields at those behind it.
    have inner := (reportIf_sublist fields.isEmpty (path ++ [.key "fields"])
      .repeaterFieldsMissing).append (finds_field.each.ordered (path ++ [.key "fields"]) fields)
    rw [checkActive, List.append_assoc, pathsOf_append, pathsOf_append, pathsOf_append]
    refine ((names.append inner).trans ?_).cons _
    simp [placesOfMembers, Value.places, fieldsValue, Function.comp_def]
  mem_iff path repeater place := by
    obtain ⟨label, nameFrom, fields⟩ := repeater
    simp only [checkActive, pathsOf_append, List.mem_append, mem_checkPresent, pathsOf_reportIf,
      finds_fields.mem_iff]
    constructor
    · rintro (((⟨rfl, rfl⟩ | ⟨rfl, rfl⟩) | none) | ⟨inner, broken, rfl⟩)
      · exact ⟨_, .label rfl, rfl⟩
      · exact ⟨_, .nameFrom rfl, rfl⟩
      · split at none
        · rename_i empty
          rw [List.mem_singleton.mp none]
          exact ⟨_, .noFields (List.isEmpty_iff.mp empty), rfl⟩
        · cases none
      · exact ⟨_, .fields broken, by simp⟩
    · rintro ⟨_, empty | empty | none | broken, rfl⟩
      · exact .inl (.inl (.inl ⟨empty, rfl⟩))
      · exact .inl (.inl (.inr ⟨empty, rfl⟩))
      · have empty : fields = [] := none
        simp [empty]
      · exact .inr ⟨_, broken, by simp⟩

namespace Description

variable {block : Description}

/-- The places of a description. The repeater has its place at the end, also where it is not
there. -/
def places (block : Description) : List (List Segment) :=
  block.value.places ++ if block.repeater.isNone then [[.key "repeater"]] else []

theorem checkRepeater_sublist (announced : Bool) (repeater : Option Repeater) :
    (pathsOf (checkRepeater announced repeater)).Sublist
      (placesOfMembers (optionalMember "repeater" repeaterValue repeater) ++
        if repeater.isNone then [[.key "repeater"]] else []) := by
  match announced, repeater with
  | true, none => exact List.Sublist.refl _
  | false, none => exact List.nil_sublist _
  | false, some repeater => exact (List.nil_sublist _).cons_cons _
  | true, some repeater =>
      rw [checkRepeater_active, optionalMember, placesOfMembers]
      exact ((finds_repeater.ordered [.key "repeater"] repeater).trans
        (List.sublist_append_left _ _)).trans (List.sublist_append_left _ _)

/-- Issues come in the order of the document. -/
theorem issues_sublist_places (block : Description) :
    (pathsOf block.issues).Sublist block.places := by
  have names := (((checkForm_sublist isPascalName [.key "blockName"] .blockNameMissing
    .blockNameNotPascal block.blockName).append (checkForm_sublist isTemplateName
    [.key "tplFilename"] .templateMissing .templateMalformed block.template)).append
    (checkForm_sublist isBlockCode [.key "code"] .codeMissing .codeMalformed block.code)).append
    ((checkPresent_sublist [.key "nameLabel"] .displayNameMissing block.displayName).append
      (checkPresent_sublist [.key "description"] .aboutMissing block.about))
  have plain : ([] : List (List Segment)).Sublist
      [[.key "tab"], [.key "icon"], [.key "hasRepeater"]] := List.nil_sublist _
  have fields := finds_fields.ordered [.key "fields"] block.fields
  have repeater := checkRepeater_sublist block.hasRepeater block.repeater
  have whole := ((names.append (plain.append fields)).append repeater).cons []
  have listed : block.value.places = [] :: placesOfMembers (descriptionMembers block) := rfl
  rw [places, listed, descriptionMembers, placesOfMembers_append]
  simpa [issues, placesOfMembers, Value.places] using whole

theorem mem_checkRepeater {announced : Bool} {repeater : Option Repeater} {place : List Segment} :
    place ∈ pathsOf (checkRepeater announced repeater) ↔
      (¬ (announced = true ↔ repeater.isSome) ∧ [.key "repeater"] = place) ∨
      ∃ active, (if announced then repeater else none) = some active ∧
        ∃ inner, active.Breaks inner ∧ .key "repeater" :: inner = place := by
  match announced, repeater with
  | true, none => simp [checkRepeater, eq_comm]
  | false, none => simp [checkRepeater]
  | false, some repeater => simp [checkRepeater, eq_comm]
  | true, some repeater => simp [checkRepeater_active, finds_repeater.mem_iff]

/-- A place is reported exactly if a rule is broken there. -/
theorem mem_issues_iff {place : List Segment} :
    place ∈ pathsOf block.issues ↔ block.Breaks block.activeRepeater place := by
  simp only [issues, pathsOf_append, List.mem_append, mem_checkPresent, finds_fields.mem_iff,
    mem_checkForm (fun _ => Pattern.isPascalName_iff) rfl,
    mem_checkForm (fun _ => Pattern.isTemplateName_iff) rfl,
    mem_checkForm (fun _ => Pattern.isBlockCode_iff) rfl, mem_checkRepeater]
  constructor
  · rintro ((((((⟨malformed, rfl⟩ | ⟨malformed, rfl⟩) | ⟨malformed, rfl⟩) | ⟨empty, rfl⟩) |
      ⟨empty, rfl⟩) | ⟨inner, broken, rfl⟩) | ⟨disagree, rfl⟩ |
      ⟨repeater, active, inner, broken, rfl⟩)
    · exact .blockName malformed
    · exact .template malformed
    · exact .code malformed
    · exact .displayName empty
    · exact .about empty
    · exact .fields broken
    · exact .announced disagree
    · exact .repeater active broken
  · rintro (malformed | malformed | malformed | empty | empty | broken | disagree |
      ⟨active, broken⟩)
    · exact .inl (.inl (.inl (.inl (.inl (.inl ⟨malformed, rfl⟩)))))
    · exact .inl (.inl (.inl (.inl (.inl (.inr ⟨malformed, rfl⟩)))))
    · exact .inl (.inl (.inl (.inl (.inr ⟨malformed, rfl⟩))))
    · exact .inl (.inl (.inl (.inr ⟨empty, rfl⟩)))
    · exact .inl (.inl (.inr ⟨empty, rfl⟩))
    · exact .inl (.inr ⟨_, broken, rfl⟩)
    · exact .inr (.inl ⟨disagree, rfl⟩)
    · exact .inr (.inr ⟨_, active, _, broken, rfl⟩)

end Description

end BlockForge
