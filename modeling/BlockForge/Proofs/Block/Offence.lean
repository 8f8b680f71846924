/-
# What an issue is about

An issue has a path and a problem, and both speak of one value of the description: the text that
is empty or has another form, the empty list of fields, the repeater that is not announced, the
name that stands twice, or the name that no field has. Which value that is, is told here by the
attribute of the description that a rule is about, beside the names that lead to it.

The checks spell these names by themselves, and so does the encoding. Each of the two is compared
with the rules: an issue of a check is an offence against one of them, and where the place of an
offence is followed through the description as a value, it leads to the value that offends. So
every path leads to the value that its problem is about. The only path that leads nowhere is that
of a repeater that is announced and not there.
-/

import BlockForge.Proofs.Block.Report

namespace BlockForge

open BlockForge.Block BlockForge.Json

variable {α : Type}

/-! ## Offences -/

/-- A text offends against its form: it is empty, or it is not empty and has another form. -/
inductive Misformed (pattern : RegularExpression Char) (missing malformed : Problem) :
    String → Problem → Prop where
  | empty : Misformed pattern missing malformed "" missing
  | form {text : String} (there : text ≠ "") (other : text.toList ∉ pattern.matches') :
      Misformed pattern missing malformed text malformed

/-- A value of an option offends against a rule at a place inside the option. -/
inductive Choice.Offence : Choice → List Segment → Problem → Value → Prop where
  | id (label : String) : Offence (.labeled "" label) [.key "id"] .choiceIdMissing (.string "")
  | label (id : String) : Offence (.labeled id "") [.key "label"] .choiceLabelMissing (.string "")

/-- A value of what only one kind of field has offends against a rule. -/
inductive FieldKind.Offence : FieldKind → List Segment → Problem → Value → Prop where
  | collection (pattern : String) :
      Offence (.selector "" pattern) [.key "collection"] .collectionMissing (.string "")
  | pattern (collection : String) :
      Offence (.selector collection "") [.key "selector"] .patternMissing (.string "")
  | choices {kind : FieldKind} {place : List Segment} {problem : Problem} {v : Value}
      (among : Among (fun choice place => choice.Offence place problem v) kind.choices place) :
      Offence kind (.key "choices" :: place) problem v
  | titleTag {title : TitleDefault} (empty : title.tag = "") :
      Offence (.title (some title)) [.key "defaultValue", .key "tag"] .titleTagMissing
        (.string title.tag)

/-- A value of a field offends against a rule at a place inside the field. -/
inductive Field.Offence (field : Field) : List Segment → Problem → Value → Prop where
  | name {problem : Problem}
      (misformed : Misformed Pattern.fieldName .fieldNameMissing .fieldNameNotSnake field.name
        problem) : Offence field [.key "name"] problem (.string field.name)
  | label (empty : field.label = "") :
      Offence field [.key "label"] .labelMissing (.string field.label)
  | kind {place : List Segment} {problem : Problem} {v : Value}
      (inside : field.kind.Offence place problem v) : Offence field place problem v

/-- The name of a field is that of an earlier one. -/
inductive RepeatedName (fields : List Field) : List Segment → Problem → Value → Prop where
  | again {earlier position : Nat} {first field : Field} (before : earlier < position)
      (heldFirst : fields[earlier]? = some first) (held : fields[position]? = some field)
      (same : first.name = field.name) :
      RepeatedName fields [.index position, .key "name"] (.fieldNameRepeated field.name)
        (.string field.name)

/-- A value of a repeater offends against a rule at a place inside the repeater, or it gives rise
to a warning. -/
inductive Repeater.Offence (repeater : Repeater) : List Segment → Problem → Value → Prop where
  | label (empty : repeater.label = "") :
      Offence repeater [.key "nameLabel"] .repeaterLabelMissing (.string repeater.label)
  | nameFrom (empty : repeater.nameFrom = "") :
      Offence repeater [.key "nameFrom"] .nameFromMissing (.string repeater.nameFrom)
  | noFields (none : repeater.fields = []) :
      Offence repeater [.key "fields"] .repeaterFieldsMissing (.array [])
  | fields {place : List Segment} {problem : Problem} {v : Value}
      (among : Among (fun field place => field.Offence place problem v) repeater.fields place) :
      Offence repeater (.key "fields" :: place) problem v
  /-- Only the last field of a name counts. -/
  | repeatedName {place : List Segment} {problem : Problem} {v : Value}
      (again : RepeatedName repeater.fields place problem v) :
      Offence repeater (.key "fields" :: place) problem v
  | unknownName (there : repeater.nameFrom ≠ "")
      (other : ∀ field ∈ repeater.fields, field.name ≠ repeater.nameFrom) :
      Offence repeater [.key "nameFrom"] (.nameFromUnknown repeater.nameFrom)
        (.string repeater.nameFrom)

/-- A value of a description offends against a rule at a place, or it gives rise to a warning.
Only the values of a repeater that is there and announced do. -/
inductive Description.Offence (block : Description) : List Segment → Problem → Value → Prop where
  | blockName {problem : Problem}
      (misformed : Misformed Pattern.blockName .blockNameMissing .blockNameNotPascal
        block.blockName problem) :
      Offence block [.key "blockName"] problem (.string block.blockName)
  | template {problem : Problem}
      (misformed : Misformed Pattern.template .templateMissing .templateMalformed block.template
        problem) : Offence block [.key "tplFilename"] problem (.string block.template)
  | code {problem : Problem}
      (misformed : Misformed Pattern.code .codeMissing .codeMalformed block.code problem) :
      Offence block [.key "code"] problem (.string block.code)
  | displayName (empty : block.displayName = "") :
      Offence block [.key "nameLabel"] .displayNameMissing (.string block.displayName)
  | about (empty : block.about = "") :
      Offence block [.key "description"] .aboutMissing (.string block.about)
  | fields {place : List Segment} {problem : Problem} {v : Value}
      (among : Among (fun field place => field.Offence place problem v) block.fields place) :
      Offence block (.key "fields" :: place) problem v
  /-- Only the last field of a name counts. -/
  | repeatedName {place : List Segment} {problem : Problem} {v : Value}
      (again : RepeatedName block.fields place problem v) :
      Offence block (.key "fields" :: place) problem v
  | unannounced {repeater : Repeater} (off : block.hasRepeater = false)
      (there : block.repeater = some repeater) :
      Offence block [.key "repeater"] .repeaterUnannounced (repeaterValue repeater).canonical
  | repeater {repeater : Repeater} {place : List Segment} {problem : Problem} {v : Value}
      (active : block.activeRepeater = some repeater)
      (inside : repeater.Offence place problem v) :
      Offence block (.key "repeater" :: place) problem v

/-! ## Issues are offences -/

variable {issue : Issue} {path place : List Segment} {problem : Problem} {v : Value}

theorem mem_reportIf_iff {broken : Bool} {path : List Segment} {problem : Problem} :
    issue ∈ reportIf broken path problem ↔ broken ∧ issue = ⟨path, problem⟩ := by
  cases broken <;> simp [reportIf]

theorem mem_checkPresent_iff {missing : Problem} {text : String} :
    issue ∈ checkPresent path missing text ↔ text = "" ∧ issue = ⟨path, missing⟩ := by
  rw [checkPresent, mem_reportIf_iff]
  simp

/-- What is said of a text by its form is said of a text that does not have it. -/
theorem misformed_of_mem_checkForm {form : List Char → Bool} {pattern : RegularExpression Char}
    (tells : ∀ text, form text ↔ text ∈ pattern.matches') {missing malformed : Problem}
    {text : String} (held : issue ∈ checkForm form path missing malformed text) :
    issue.path = path ∧ Misformed pattern missing malformed text issue.problem := by
  rw [checkForm] at held
  split at held
  · rename_i empty
    have blank : text = "" := by simpa using empty
    rw [List.mem_singleton.mp held, blank]
    exact ⟨rfl, .empty⟩
  · rename_i there
    obtain ⟨other, rfl⟩ := mem_reportIf_iff.mp held
    refine ⟨rfl, .form (by simpa using there) ?_⟩
    rw [← tells]
    simpa using other

/-- The issues that a check reports of an item are offences inside it. -/
def Accuses (check : List Segment → α → List Issue)
    (offence : α → List Segment → Problem → Value → Prop) : Prop :=
  ∀ path item, ∀ issue ∈ check path item,
    ∃ inner v, issue.path = path ++ inner ∧ offence item inner issue.problem v

theorem Accuses.each {check : List Segment → α → List Issue}
    {offence : α → List Segment → Problem → Value → Prop} (accuses : Accuses check offence) :
    Accuses (checkEach check) fun items place problem v =>
      Among (fun item place => offence item place problem v) items place := by
  intro path items issue held
  simp only [checkEach, List.mem_flatMap, Prod.exists, List.mk_mem_zipIdx_iff_getElem?] at held
  obtain ⟨item, position, stands, reported⟩ := held
  obtain ⟨inner, v, leads, offends⟩ := accuses _ item issue reported
  refine ⟨.index position :: inner, v, ?_, .item stands offends⟩
  rw [leads, List.append_assoc, List.singleton_append]

theorem accuses_choice : Accuses checkChoice Choice.Offence := by
  intro path choice issue held
  cases choice with
  | plain text => cases held
  | labeled id label =>
      rcases List.mem_append.mp held with first | second
      · obtain ⟨rfl, rfl⟩ := mem_checkPresent_iff.mp first
        exact ⟨_, _, rfl, .id label⟩
      · obtain ⟨rfl, rfl⟩ := mem_checkPresent_iff.mp second
        exact ⟨_, _, rfl, .label id⟩

theorem accuses_choices (path : List Segment) (choices : Option (List Choice)) {issue : Issue}
    (held : issue ∈ checkChoices path choices) : ∃ inner v, issue.path = path ++ inner ∧
      ∃ place, inner = .key "choices" :: place ∧
        Among (fun choice place => choice.Offence place issue.problem v) (choices.getD []) place := by
  obtain ⟨inner, v, leads, among⟩ := accuses_choice.each _ _ issue held
  refine ⟨.key "choices" :: inner, v, ?_, inner, rfl, among⟩
  rw [leads, List.append_assoc, List.singleton_append]

theorem accuses_kind : Accuses checkKind FieldKind.Offence := by
  intro path kind issue held
  cases kind with
  | selector collection pattern =>
      rcases List.mem_append.mp held with first | second
      · obtain ⟨rfl, rfl⟩ := mem_checkPresent_iff.mp first
        exact ⟨_, _, rfl, .collection pattern⟩
      · obtain ⟨rfl, rfl⟩ := mem_checkPresent_iff.mp second
        exact ⟨_, _, rfl, .pattern collection⟩
  | select default choices | radioGroup default choices | multiselect default choices =>
      obtain ⟨_, v, leads, place, rfl, among⟩ := accuses_choices path choices held
      exact ⟨_, v, leads, .choices among⟩
  | title default =>
      cases default with
      | none => cases held
      | some title =>
          obtain ⟨empty, rfl⟩ := mem_checkPresent_iff.mp held
          exact ⟨_, _, rfl, .titleTag empty⟩
  | _ => cases held

theorem accuses_field : Accuses checkField Field.Offence := by
  intro path field issue held
  rcases List.mem_append.mp held with named | own
  · rcases List.mem_append.mp named with name | label
    · obtain ⟨leads, misformed⟩ :=
        misformed_of_mem_checkForm (fun _ => Pattern.isSnakeName_iff) name
      exact ⟨_, _, leads, .name misformed⟩
    · obtain ⟨empty, rfl⟩ := mem_checkPresent_iff.mp label
      exact ⟨_, _, rfl, .label empty⟩
  · obtain ⟨inner, v, leads, offends⟩ := accuses_kind path field.kind issue own
    exact ⟨inner, v, leads, .kind offends⟩

theorem accuses_fields : Accuses (checkEach checkField) fun fields place problem v =>
    Among (fun field place => field.Offence place problem v) fields place :=
  accuses_field.each

theorem accuses_active : Accuses checkActive Repeater.Offence := by
  intro path repeater issue held
  simp only [checkActive, List.mem_append, mem_checkPresent_iff, mem_reportIf_iff,
    List.isEmpty_iff] at held
  rcases held with ((⟨empty, rfl⟩ | ⟨empty, rfl⟩) | ⟨none, rfl⟩) | inFields
  · exact ⟨_, _, rfl, .label empty⟩
  · exact ⟨_, _, rfl, .nameFrom empty⟩
  · exact ⟨_, _, rfl, .noFields none⟩
  · obtain ⟨inner, v, leads, among⟩ := accuses_fields _ _ issue inFields
    refine ⟨.key "fields" :: inner, v, ?_, .fields among⟩
    rw [leads, List.append_assoc, List.singleton_append]

/-! ### Warnings -/

/-- A name is reported if it is among those that came before or stands twice in the rest. -/
theorem exists_of_mem_repeatedNames {earlier : List String} {position : Nat} {fields : List Field}
    (held : issue ∈ repeatedNames path earlier position fields) :
    ∃ later field, fields[later]? = some field ∧
      issue = ⟨path ++ [.index (position + later), .key "name"], .fieldNameRepeated field.name⟩ ∧
      (field.name ∈ earlier ∨
        ∃ before < later, ∃ first, fields[before]? = some first ∧ first.name = field.name) := by
  induction fields generalizing earlier position with
  | nil => cases held
  | cons field rest ih =>
      rw [repeatedNames, List.mem_append, mem_reportIf_iff] at held
      rcases held with ⟨known, rfl⟩ | inRest
      · exact ⟨0, field, rfl, rfl, .inl (by simpa using known)⟩
      · obtain ⟨later, other, stands, rfl, known⟩ := ih inRest
        refine ⟨later + 1, other, stands, by rw [Nat.add_assoc, Nat.add_comm 1], ?_⟩
        -- The name of this field has been put before those that came earlier.
        rcases known with among | ⟨before, less, first, standsFirst, same⟩
        · rcases List.mem_cons.mp among with here | sooner
          · exact .inr ⟨0, Nat.succ_pos later, field, rfl, here.symm⟩
          · exact .inl sooner
        · exact .inr ⟨before + 1, Nat.succ_lt_succ less, first, standsFirst, same⟩

theorem repeatedName_of_mem {fields : List Field} (held : issue ∈ repeatedNames path [] 0 fields) :
    ∃ inner v, issue.path = path ++ inner ∧ RepeatedName fields inner issue.problem v := by
  obtain ⟨position, field, stands, rfl, none | ⟨before, less, first, standsFirst, same⟩⟩ :=
    exists_of_mem_repeatedNames held
  · cases none
  · refine ⟨_, _, ?_, .again less standsFirst stands same⟩
    rw [Nat.zero_add]

theorem accuses_repeaterWarnings (repeater : Repeater)
    (held : issue ∈ repeaterWarnings repeater) :
    ∃ inner v, issue.path = .key "repeater" :: inner ∧
      repeater.Offence inner issue.problem v := by
  rcases List.mem_append.mp held with named | unknown
  · obtain ⟨inner, v, leads, again⟩ := repeatedName_of_mem named
    exact ⟨.key "fields" :: inner, v, leads, .repeatedName again⟩
  · obtain ⟨lost, rfl⟩ := mem_reportIf_iff.mp unknown
    refine ⟨_, _, rfl, .unknownName ?_ ?_⟩
    · simp_all
    · simp_all

namespace Description

variable {block : Description}

theorem offence_of_mem_checkRepeater
    (held : issue ∈ checkRepeater block.hasRepeater block.repeater) :
    (issue = ⟨[.key "repeater"], .repeaterMissing⟩ ∧ block.hasRepeater = true ∧
      block.repeater = none) ∨ ∃ v, block.Offence issue.path issue.problem v := by
  cases announced : block.hasRepeater <;> cases there : block.repeater <;>
    rw [announced, there] at held
  case false.none => cases held
  case false.some repeater =>
    rw [List.mem_singleton.mp held]
    exact .inr ⟨_, .unannounced announced there⟩
  case true.none => exact .inl ⟨List.mem_singleton.mp held, rfl, rfl⟩
  case true.some repeater =>
    have active : block.activeRepeater = some repeater := by
      rw [activeRepeater, announced, if_pos rfl, there]
    obtain ⟨inner, v, leads, offends⟩ := accuses_active [.key "repeater"] repeater issue held
    rw [leads]
    exact .inr ⟨v, .repeater active offends⟩

/-- Every issue is an offence at its path, but that of a repeater that is not there. -/
theorem offence_of_mem_issues (held : issue ∈ block.issues) :
    (issue = ⟨[.key "repeater"], .repeaterMissing⟩ ∧ block.hasRepeater = true ∧
      block.repeater = none) ∨ ∃ v, block.Offence issue.path issue.problem v := by
  simp only [issues, List.mem_append, mem_checkPresent_iff] at held
  rcases held with (((((name | template) | code) | ⟨empty, rfl⟩) | ⟨empty, rfl⟩) | inFields) |
    inRepeater
  · obtain ⟨leads, misformed⟩ := misformed_of_mem_checkForm (fun _ => Pattern.isPascalName_iff) name
    rw [leads]
    exact .inr ⟨_, .blockName misformed⟩
  · obtain ⟨leads, misformed⟩ :=
      misformed_of_mem_checkForm (fun _ => Pattern.isTemplateName_iff) template
    rw [leads]
    exact .inr ⟨_, .template misformed⟩
  · obtain ⟨leads, misformed⟩ := misformed_of_mem_checkForm (fun _ => Pattern.isBlockCode_iff) code
    rw [leads]
    exact .inr ⟨_, .code misformed⟩
  · exact .inr ⟨_, .displayName empty⟩
  · exact .inr ⟨_, .about empty⟩
  · obtain ⟨inner, v, leads, among⟩ := accuses_fields _ _ issue inFields
    rw [leads]
    exact .inr ⟨v, .fields among⟩
  · exact offence_of_mem_checkRepeater inRepeater

/-- A warning is about the fields of the block or about its active repeater. -/
theorem mem_warnings (held : issue ∈ block.warnings) :
    issue ∈ repeatedNames [.key "fields"] [] 0 block.fields ∨
      ∃ repeater, block.activeRepeater = some repeater ∧ issue ∈ repeaterWarnings repeater := by
  rcases List.mem_append.mp held with named | inRepeater
  · exact .inl named
  · cases active : block.activeRepeater with
    | none =>
        rw [active] at inRepeater
        cases inRepeater
    | some repeater =>
        rw [active] at inRepeater
        exact .inr ⟨repeater, rfl, inRepeater⟩

theorem offence_of_mem_warnings (held : issue ∈ block.warnings) :
    ∃ v, block.Offence issue.path issue.problem v := by
  rcases mem_warnings held with named | ⟨repeater, active, inRepeater⟩
  · obtain ⟨inner, v, leads, again⟩ := repeatedName_of_mem named
    rw [leads]
    exact ⟨v, .repeatedName again⟩
  · obtain ⟨inner, v, leads, offends⟩ := accuses_repeaterWarnings repeater inRepeater
    rw [leads]
    exact ⟨v, .repeater active offends⟩

end Description

/-! ## Where offences stand -/

theorem Among.follow? {breaks : α → List Segment → Prop} {items : List α} {write : α → Value}
    (among : Among breaks items place)
    (inside : ∀ item place, breaks item place → (write item).canonical.follow? place = some v) :
    (Value.array (items.map write)).canonical.follow? place = some v := by
  cases among with
  | item held broken =>
      rw [Value.follow?_index (by rw [List.getElem?_map, held, Option.map_some])]
      exact inside _ _ broken

/-- The place of an offence inside an option leads to what offends. -/
theorem Choice.Offence.follow? {choice : Choice} (offence : choice.Offence place problem v) :
    (choiceValue choice).canonical.follow? place = some v := by
  cases offence with
  | id label | label id => exact Value.follow?_text (by simp) (by simp)

/-- The place of an offence of a kind starts with the key of one of its attributes, and leads to
what offends there. -/
theorem FieldKind.Offence.follow? {kind : FieldKind} (offence : kind.Offence place problem v) :
    ∃ key w rest, place = .key key :: rest ∧ (key, w) ∈ attributesOf kind ∧
      w.canonical.follow? rest = some v := by
  cases offence with
  | collection pattern => exact ⟨_, _, _, rfl, List.mem_cons_self, rfl⟩
  | pattern collection =>
      exact ⟨_, _, _, rfl, List.mem_cons_of_mem _ List.mem_cons_self, rfl⟩
  | choices among =>
      have leads := among.follow? fun _ _ => Choice.Offence.follow?
      have there : kind.choices ≠ [] := by
        rintro none
        rw [none] at among
        exact not_among_nil among
      refine ⟨"choices", choicesValue kind.choices, _, rfl, ?_, leads⟩
      cases kind with
      | select default choices | radioGroup default choices | multiselect default choices =>
          cases choices with
          | none => exact absurd rfl there
          | some choices => exact List.mem_append_right _ List.mem_cons_self
      | _ => exact absurd rfl there
  | titleTag empty =>
      exact ⟨_, _, _, rfl, List.mem_cons_self, Value.follow?_key (by simp) List.mem_cons_self []⟩

theorem follow?_fieldName (field : Field) :
    (fieldValue field).canonical.follow? [.key "name"] = some (.string field.name) :=
  Value.follow?_text (fieldMembers_nodup field) (by simp)

/-- The place of an offence inside a field leads to what offends. -/
theorem Field.Offence.follow? {field : Field} (offence : field.Offence place problem v) :
    (fieldValue field).canonical.follow? place = some v := by
  cases offence with
  | name => exact follow?_fieldName field
  | label empty => exact Value.follow?_text (fieldMembers_nodup field) (by simp)
  | kind inside =>
      obtain ⟨key, w, rest, rfl, held, leads⟩ := inside.follow?
      have among : (key, w) ∈ fieldMembers field :=
        List.mem_append_right _ (List.mem_cons_of_mem _ held)
      exact (Value.follow?_key (fieldMembers_nodup field) among rest).trans leads

theorem RepeatedName.follow? {fields : List Field}
    (again : RepeatedName fields place problem v) :
    (fieldsValue fields).canonical.follow? place = some v := by
  cases again with
  | again before heldFirst held same =>
      rw [fieldsValue, Value.follow?_index (by rw [List.getElem?_map, held, Option.map_some])]
      exact follow?_fieldName _

/-- The place of an offence inside a repeater leads to what offends. -/
theorem Repeater.Offence.follow? {repeater : Repeater}
    (offence : repeater.Offence place problem v) :
    (repeaterValue repeater).canonical.follow? place = some v := by
  have inFields (rest : List Segment) :
      (repeaterValue repeater).canonical.follow? (.key "fields" :: rest) =
        (fieldsValue repeater.fields).canonical.follow? rest :=
    Value.follow?_key (repeaterMembers_nodup repeater) (by simp) rest
  cases offence with
  | label | nameFrom | unknownName =>
      exact Value.follow?_text (repeaterMembers_nodup repeater) (by simp)
  | noFields none =>
      rw [inFields, none]
      rfl
  | fields among =>
      rw [inFields]
      exact among.follow? fun _ _ => Field.Offence.follow?
  | repeatedName again =>
      rw [inFields]
      exact again.follow?

namespace Description

variable {block : Description}

theorem value_eq : block.value = .object (descriptionMembers block) := rfl

theorem follow?_fields (rest : List Segment) :
    block.value.canonical.follow? (.key "fields" :: rest) =
      (fieldsValue block.fields).canonical.follow? rest := by
  rw [value_eq]
  exact Value.follow?_key (descriptionMembers_nodup block) (by simp [descriptionMembers]) rest

theorem follow?_repeater {repeater : Repeater} (there : block.repeater = some repeater)
    (rest : List Segment) :
    block.value.canonical.follow? (.key "repeater" :: rest) =
      (repeaterValue repeater).canonical.follow? rest := by
  have held : ("repeater", repeaterValue repeater) ∈ descriptionMembers block := by
    simp [descriptionMembers, there, optionalMember]
  rw [value_eq]
  exact Value.follow?_key (descriptionMembers_nodup block) held rest

/-- Without a repeater no member of a description has its key. -/
theorem follow?_noRepeater (none : block.repeater = none) :
    block.value.canonical.follow? [.key "repeater"] = Option.none := by
  have absent : block.value.canonical.get? "repeater" = Option.none := by
    rw [value_eq, get?_canonical]
    simp [Value.get?, lastMember?, descriptionMembers, none, optionalMember]
  rw [Value.follow?]
  show (block.value.canonical.get? "repeater").bind _ = _
  rw [absent, Option.bind_none]

theorem repeater_of_active {repeater : Repeater} (active : block.activeRepeater = some repeater) :
    block.repeater = some repeater := by
  rw [activeRepeater] at active
  split at active
  · exact active
  · cases active

/-- The place of an offence leads to what offends. -/
theorem Offence.follow? (offence : block.Offence place problem v) :
    block.value.canonical.follow? place = some v := by
  cases offence with
  | blockName | template | code | displayName | about =>
      rw [value_eq]
      exact Value.follow?_text (descriptionMembers_nodup block) (by simp [descriptionMembers])
  | fields among =>
      rw [follow?_fields]
      exact among.follow? fun _ _ => Field.Offence.follow?
  | repeatedName again =>
      rw [follow?_fields]
      exact again.follow?
  | unannounced off there => exact follow?_repeater there []
  | repeater active inside =>
      rw [follow?_repeater (repeater_of_active active)]
      exact inside.follow?

/-! ## Paths in words -/

theorem plainPath_of_mem_issues (held : issue ∈ block.issues) : PlainPath issue.path :=
  (mem_issues_iff.mp (List.mem_map_of_mem held)).plainPath

theorem plainPath_of_mem_repeatedNames {fields : List Field} (plain : PlainPath path)
    (held : issue ∈ repeatedNames path [] 0 fields) : PlainPath issue.path := by
  obtain ⟨position, field, -, rfl, -⟩ := exists_of_mem_repeatedNames held
  apply And.intro (by simp)
  intro step among
  rcases List.mem_append.mp among with outside | inside
  · exact plain.2 step outside
  · rcases List.mem_pair.mp inside with rfl | rfl
    · trivial
    · decide

theorem plainPath_of_mem_warnings (held : issue ∈ block.warnings) : PlainPath issue.path := by
  have inFields : PlainPath [.key "fields"] := plainPath_key (by decide)
  rcases mem_warnings held with named | ⟨repeater, -, inRepeater⟩
  · exact plainPath_of_mem_repeatedNames inFields named
  · rcases List.mem_append.mp inRepeater with named | unknown
    · exact plainPath_of_mem_repeatedNames (inFields.under (by decide)) named
    · obtain ⟨-, rfl⟩ := mem_reportIf_iff.mp unknown
      exact (plainPath_key (by decide)).under (by decide)

/-- The path of every issue and of every warning, step by step as it is written, leads through the
description as a value to the value that its problem is about. Only a repeater that is announced
and not there is reported at a path that leads nowhere. -/
theorem issue_leads_to_offender (block : Description) :
    ∀ issue ∈ block.issues ++ block.warnings,
      (∃ v, block.Offence issue.path issue.problem v ∧
        block.value.canonical.follow? (pathOfText (pathText issue.path)) = some v) ∨
      (issue = ⟨[.key "repeater"], .repeaterMissing⟩ ∧ block.hasRepeater = true ∧
        block.repeater = none ∧
        block.value.canonical.follow? (pathOfText (pathText issue.path)) = none) := by
  intro issue held
  have plain : PlainPath issue.path := by
    rcases List.mem_append.mp held with reported | warned
    · exact plainPath_of_mem_issues reported
    · exact plainPath_of_mem_warnings warned
  rw [pathOfText_pathText plain.1 plain.2]
  have about : (issue = ⟨[.key "repeater"], .repeaterMissing⟩ ∧ block.hasRepeater = true ∧
      block.repeater = none) ∨ ∃ v, block.Offence issue.path issue.problem v := by
    rcases List.mem_append.mp held with reported | warned
    · exact offence_of_mem_issues reported
    · exact .inr (offence_of_mem_warnings warned)
  rcases about with ⟨rfl, announced, absent⟩ | ⟨v, offence⟩
  · exact .inr ⟨rfl, announced, absent, follow?_noRepeater absent⟩
  · exact .inl ⟨v, offence, offence.follow?⟩

/-- A description with an option that has no label in its repeater, whose items are named after a
field that it does not have. -/
def unlabeledBlock : Description where
  blockName := "Hero"
  template := "hero.tpl"
  code := "cpb_hero"
  displayName := "Hero"
  about := "Hero"
  tab := defaultTab
  icon := defaultIcon
  hasRepeater := true
  fields := []
  repeater := some ⟨"Slides", "title", [⟨"size", "Size", none, .text none⟩,
    ⟨"size", "Size", none, .select none (some [.plain "small", .labeled "large" ""])⟩]⟩

theorem unlabeledBlock_leads_to_offenders :
    (∃ v, unlabeledBlock.Offence [.key "repeater", .key "fields", .index 1, .key "choices",
        .index 1, .key "label"] .choiceLabelMissing v ∧
      unlabeledBlock.value.canonical.follow? (pathOfText "repeater.fields.1.choices.1.label") =
        some v) ∧
    (∃ v, unlabeledBlock.Offence [.key "repeater", .key "fields", .index 1, .key "name"]
        (.fieldNameRepeated "size") v ∧
      unlabeledBlock.value.canonical.follow? (pathOfText "repeater.fields.1.name") = some v) ∧
    ∃ v, unlabeledBlock.Offence [.key "repeater", .key "nameFrom"] (.nameFromUnknown "title") v ∧
      unlabeledBlock.value.canonical.follow? (pathOfText "repeater.nameFrom") = some v := by
  have leads := issue_leads_to_offender unlabeledBlock
  have label := leads ⟨[.key "repeater", .key "fields", .index 1, .key "choices", .index 1,
    .key "label"], .choiceLabelMissing⟩ (by decide)
  have name := leads ⟨[.key "repeater", .key "fields", .index 1, .key "name"],
    .fieldNameRepeated "size"⟩ (by decide)
  have nameFrom := leads ⟨[.key "repeater", .key "nameFrom"], .nameFromUnknown "title"⟩ (by decide)
  exact ⟨label.resolve_right (by simp), name.resolve_right (by simp),
    nameFrom.resolve_right (by simp)⟩

end Description

end BlockForge
