/-
# What a report says

The report of a description lists the places at which it breaks a rule: in the order of the
document, each once, and all of them. So it is empty exactly if no rule is broken. Places are
reported by their paths in words, in which no two places of a report look alike, since no key in
them could be taken for a position or for two keys.

A repeater that is there and not announced is reported as a whole. Nothing inside it is reported
then, whatever rules it breaks.
-/

import BlockForge.Proofs.Block.Rules
import BlockForge.Proofs.Lists

namespace BlockForge

open BlockForge.Block BlockForge.Json

variable {α : Type}

/-! ## No place of a description stands twice -/

namespace Block

theorem forall_mem_optionalMember {p : Value → Prop} {key : String} {write : α → Value}
    {value : Option α} : (∀ member ∈ optionalMember key write value, p member.2) ↔
      ∀ a ∈ value, p (write a) := by
  cases value <;> simp [optionalMember]

theorem distinct_strings (texts : List String) : (stringArray texts).Distinct := by
  rw [stringArray, Value.distinct_array, List.forall_mem_map]
  exact fun _ _ => trivial

theorem distinct_choices (choices : List Choice) : (choicesValue choices).Distinct := by
  rw [choicesValue, Value.distinct_array, List.forall_mem_map]
  rintro (text | ⟨id, label⟩) -
  · trivial
  · rw [choiceValue, Value.distinct_object]
    simp [Value.Distinct]

theorem distinct_title (title : TitleDefault) : (titleValue title).Distinct := by
  rw [titleValue, Value.distinct_object]
  simp [Value.Distinct, Value.ofInt, distinct_strings]

theorem distinct_attributes (kind : FieldKind) :
    ∀ member ∈ attributesOf kind, member.2.Distinct := by
  cases kind <;>
    simp [attributesOf, or_imp, forall_and, forall_mem_optionalMember, Value.Distinct,
      Value.ofFloat, distinct_strings, distinct_choices, distinct_title, - Prod.forall]

theorem distinct_field (field : Field) : (fieldValue field).Distinct := by
  have members : fieldValue field = .object (fieldMembers field) := rfl
  rw [members, Value.distinct_object]
  refine ⟨fieldMembers_nodup field, ?_⟩
  rintro ⟨key, v⟩ held
  rcases mem_fieldMembers held with ⟨-, rfl⟩ | ⟨-, rfl⟩ | ⟨b, -, -, rfl⟩ | own
  · trivial
  · trivial
  · trivial
  · rcases List.mem_cons.mp own with name | own
    · rw [(Prod.mk.inj name).2]
      trivial
    · exact distinct_attributes field.kind _ own

theorem distinct_fields (fields : List Field) : (fieldsValue fields).Distinct := by
  rw [fieldsValue, Value.distinct_array, List.forall_mem_map]
  exact fun field _ => distinct_field field

theorem distinct_repeater (repeater : Repeater) : (repeaterValue repeater).Distinct := by
  rw [repeaterValue, Value.distinct_object]
  exact ⟨repeaterMembers_nodup repeater, by simp [Value.Distinct, distinct_fields]⟩

end Block

theorem Description.distinct_value (block : Description) : block.value.Distinct := by
  have members : block.value = .object (descriptionMembers block) := rfl
  rw [members, Value.distinct_object]
  refine ⟨descriptionMembers_nodup block, ?_⟩
  rintro ⟨key, v⟩ held
  rcases mem_descriptionMembers held with ⟨-, rfl⟩ | ⟨-, rfl⟩ | ⟨-, rfl⟩ | ⟨-, rfl⟩ | ⟨-, rfl⟩ |
    ⟨-, rfl⟩ | ⟨-, rfl⟩ | ⟨-, rfl⟩ | ⟨-, rfl⟩ | ⟨repeater, -, -, rfl⟩
  case inr.inr.inr.inr.inr.inr.inr.inr.inl => exact distinct_fields block.fields
  case inr.inr.inr.inr.inr.inr.inr.inr.inr => exact distinct_repeater repeater
  all_goals trivial

theorem Description.nodup_places (block : Description) : block.places.Nodup := by
  have own := block.value.nodup_places block.distinct_value
  rw [places]
  cases there : block.repeater with
  | some repeater => simpa using own
  | none =>
      refine List.nodup_append.mpr ⟨own, List.nodup_singleton _, ?_⟩
      rintro place held _ last rfl
      rw [List.mem_singleton.mp last] at held
      -- Without a repeater no member of the description has its key.
      have listed : block.value.places = [] :: placesOfMembers (descriptionMembers block) := rfl
      rw [listed, List.mem_cons, or_iff_right (List.cons_ne_nil _ _)] at held
      obtain ⟨key, among, inner, same⟩ := exists_key_of_mem_placesOfMembers held
      cases same
      simp [descriptionMembers, there, optionalMember] at among

/-! ## Paths in words -/

/-- A step that is not taken for another one where it is written. -/
def Segment.Plain : Segment → Prop
  | .key name => name ≠ "" ∧ name.toList.all Char.isAlpha
  | .index _ => True

instance : DecidablePred Segment.Plain
  | .key name => inferInstanceAs (Decidable (name ≠ "" ∧ name.toList.all Char.isAlpha))
  | .index _ => isTrue trivial

/-- The step that a word is written for: digits tell a position, and anything else a key. -/
def Segment.ofWord (word : List Char) : Segment :=
  if word.all Char.isDigit then .index (Nat.ofDigitChars 10 word 0) else .key (String.ofList word)

/-- The path that a text is written for. -/
def pathOfText (text : String) : List Segment := (text.toList.splitOn '.').map Segment.ofWord

theorem not_isDigit_of_isAlpha {c : Char} (letter : c.isAlpha) : ¬ c.isDigit := by
  change (c.isUpper || c.isLower) = true at letter
  rw [Bool.or_eq_true, ← Pattern.mem_upper, ← Pattern.mem_lower, Pattern.upper, Pattern.lower,
    Pattern.mem_span (by decide), Pattern.mem_span (by decide)] at letter
  rw [← Pattern.mem_digits, Pattern.digits, Pattern.mem_span (by decide)]
  have nine : '9'.toNat = 57 := rfl
  have upper : 'A'.toNat = 65 := rfl
  have lower : 'a'.toNat = 97 := rfl
  omega

theorem Segment.isDigit_of_mem_index {position : Nat} {c : Char}
    (held : c ∈ (index position).text.toList) : c.isDigit := by
  rw [text, String.toList_ofList] at held
  exact Nat.isDigit_of_mem_toDigits (by decide) (by decide) held

theorem Segment.Plain.ofWord_text {step : Segment} (plain : step.Plain) :
    ofWord step.text.toList = step := by
  cases step with
  | key name =>
      obtain ⟨named, letters⟩ := plain
      obtain ⟨c, rest, word⟩ := List.exists_cons_of_ne_nil (mt String.toList_eq_nil_iff.mp named)
      have first : ¬ c.isDigit := not_isDigit_of_isAlpha (by simp_all)
      rw [text, ofWord, if_neg (by simp [word, first]), String.ofList_toList]
  | index position =>
      have digits : (index position).text.toList.all Char.isDigit :=
        List.all_eq_true.mpr fun _ held => isDigit_of_mem_index held
      rw [ofWord, if_pos digits, text, String.toList_ofList, natChars,
        Nat.ofDigitChars_toDigits (by decide) (by decide)]

theorem Segment.Plain.dot_not_mem {step : Segment} (plain : step.Plain) :
    '.' ∉ step.text.toList := by
  intro held
  cases step with
  | key name => exact absurd (List.all_eq_true.mp plain.2 '.' held) (by decide)
  | index position => exact absurd (isDigit_of_mem_index held) (by decide)

/-- A path of plain steps is told by how it is written. -/
theorem pathOfText_pathText {path : List Segment} (there : path ≠ [])
    (plain : ∀ step ∈ path, step.Plain) : pathOfText (pathText path) = path := by
  have words : (pathText path).toList.splitOn '.' = path.map fun step => step.text.toList := by
    rw [pathText, String.toList_intercalate, List.map_map]
    refine List.splitOn_intercalate '.' ?_ (mt List.map_eq_nil_iff.mp there)
    intro word held
    obtain ⟨step, among, rfl⟩ := List.mem_map.mp held
    exact (plain step among).dot_not_mem
  rw [pathOfText, words, List.map_map]
  exact (List.map_congr_left fun step held => (plain step held).ofWord_text).trans (List.map_id _)

/-! ## The places of broken rules -/

/-- A path of at least one step, all of them plain. -/
def PlainPath (path : List Segment) : Prop := path ≠ [] ∧ ∀ step ∈ path, step.Plain

theorem plainPath_key {name : String} (plain : (Segment.key name).Plain) :
    PlainPath [.key name] :=
  ⟨List.cons_ne_nil _ _, by simpa using plain⟩

theorem PlainPath.under {path : List Segment} (plain : PlainPath path) {step : Segment}
    (first : step.Plain) : PlainPath (step :: path) :=
  ⟨List.cons_ne_nil _ _, List.forall_mem_cons.mpr ⟨first, plain.2⟩⟩

variable {place : List Segment}

theorem Among.plainPath {breaks : α → List Segment → Prop} {items : List α}
    (broken : Among breaks items place)
    (inside : ∀ item place, breaks item place → PlainPath place) : PlainPath place := by
  obtain ⟨-, broken⟩ := broken
  exact (inside _ _ broken).under trivial

theorem Choice.Breaks.plainPath {choice : Choice} (broken : choice.Breaks place) :
    PlainPath place := by
  cases broken <;> exact plainPath_key (by decide)

theorem FieldKind.Breaks.plainPath {kind : FieldKind} (broken : kind.Breaks place) :
    PlainPath place := by
  cases broken with
  | collection | pattern => exact plainPath_key (by decide)
  | choices broken => exact (broken.plainPath fun _ _ => Choice.Breaks.plainPath).under (by decide)
  | titleTag => exact (plainPath_key (by decide)).under (by decide)

theorem Field.Breaks.plainPath {field : Field} (broken : field.Breaks place) : PlainPath place := by
  cases broken with
  | name | label => exact plainPath_key (by decide)
  | kind broken => exact broken.plainPath

theorem Repeater.Breaks.plainPath {repeater : Repeater} (broken : repeater.Breaks place) :
    PlainPath place := by
  cases broken with
  | label | nameFrom | noFields => exact plainPath_key (by decide)
  | fields broken => exact (broken.plainPath fun _ _ => Field.Breaks.plainPath).under (by decide)

theorem Description.Breaks.plainPath {block : Description} {governed : Option Repeater}
    (broken : block.Breaks governed place) : PlainPath place := by
  cases broken with
  | blockName | template | code | displayName | about | announced => exact plainPath_key (by decide)
  | fields broken => exact (broken.plainPath fun _ _ => Field.Breaks.plainPath).under (by decide)
  | repeater _ broken => exact broken.plainPath.under (by decide)

/-! ## Reports -/

namespace Description

variable {block : Description}

theorem issues_eq_nil_iff :
    block.issues = [] ↔ ∀ place, ¬ block.Breaks block.activeRepeater place := by
  rw [← List.map_eq_nil_iff (f := Issue.path), List.eq_nil_iff_forall_not_mem]
  exact forall_congr' fun place => not_congr mem_issues_iff

open scoped Classical in
/-- The report of a description lists the paths of the places at which it breaks a rule, in the
order of the document and each once. The rules for what is inside a repeater are asked of the one
that is active. -/
theorem report_exact (block : Description) :
    block.issues.map (fun issue => pathText issue.path) =
        (block.places.filter (block.Breaks block.activeRepeater)).map pathText ∧
      (∀ place, block.Breaks block.activeRepeater place → place ∈ block.places) ∧
      (block.issues.map fun issue => pathText issue.path).Nodup ∧
      (block.issues = [] ↔ ∀ place, ¬ block.Breaks block.activeRepeater place) := by
  have ordered := issues_sublist_places block
  have paths : pathsOf block.issues = block.places.filter (block.Breaks block.activeRepeater) :=
    eq_filter_of_sublist ordered block.nodup_places fun _ _ => mem_issues_iff
  have texts : (block.issues.map fun issue => pathText issue.path) =
      (pathsOf block.issues).map pathText := by
    rw [List.map_map]
    rfl
  refine ⟨by rw [texts, paths], fun place broken => ordered.subset (mem_issues_iff.mpr broken), ?_,
    issues_eq_nil_iff⟩
  rw [texts]
  refine (block.nodup_places.sublist ordered).map_on fun one held other heldToo same => ?_
  have plain := (mem_issues_iff.mp held).plainPath
  have plainToo := (mem_issues_iff.mp heldToo).plainPath
  rw [← pathOfText_pathText plain.1 plain.2, same, pathOfText_pathText plainToo.1 plainToo.2]

/-- A description whose repeater is there, is not announced and has a field of a wrong name. -/
def unannouncedBlock : Description where
  blockName := "Hero"
  template := "hero.tpl"
  code := "cpb_hero"
  displayName := "Hero"
  about := "Hero"
  tab := defaultTab
  icon := defaultIcon
  hasRepeater := false
  fields := []
  repeater := some ⟨"Slides", "title", [{ name := "Title", label := "Title", kind := .text none }]⟩

open scoped Classical in
/-- What breaks a rule inside a repeater that is not announced is not reported. -/
theorem report_unannouncedBlock_ne :
    unannouncedBlock.issues.map (fun issue => pathText issue.path) = ["repeater"] ∧
      unannouncedBlock.issues.map (fun issue => pathText issue.path) ≠
        (unannouncedBlock.places.filter
          (unannouncedBlock.Breaks unannouncedBlock.repeater)).map pathText := by
  have reported :
      unannouncedBlock.issues.map (fun issue => pathText issue.path) = ["repeater"] := by
    decide
  refine ⟨reported, fun same => ?_⟩
  have broken : unannouncedBlock.Breaks unannouncedBlock.repeater
      [.key "repeater", .key "fields", .index 0, .key "name"] := by
    refine .repeater rfl (.fields (.item rfl (.name ?_)))
    rw [← Pattern.isSnakeName_iff]
    decide
  have listed : "repeater.fields.0.name" ∈ (unannouncedBlock.places.filter
      (unannouncedBlock.Breaks unannouncedBlock.repeater)).map pathText :=
    List.mem_map.mpr ⟨_, List.mem_filter.mpr ⟨by decide, decide_eq_true broken⟩, by decide⟩
  rw [← same, reported] at listed
  exact absurd listed (by decide)

end Description

end BlockForge
