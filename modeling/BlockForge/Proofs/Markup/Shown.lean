/-
# What a template shows

Whenever a template is shown, a condition holds or it does not, and the body of a loop comes as
often as there are items. Nothing is assumed of the outcomes, except that one condition, the guard,
has the same outcome wherever it is asked. What matters of what is shown is the tags in their order:
whether every element is closed, and inside of the element in which it was opened.

A template need not nest by itself to be shown nested. An element may be opened under the guard and
closed under the guard again, and what stands between the two is nested either way.
-/

import BlockForge.Proofs.Markup.Part

namespace BlockForge.Markup

inductive Tag where
  | opening (name : List Char)
  | closing (name : List Char)

mutual

/-- A part is shown with some tags, if the guard has an outcome. -/
inductive ShowsPart (guard : List Char) (held : Bool) : Part → List Tag → Prop where
  | text (c : Char) : ShowsPart guard held (.text c) []
  | comment (text : List Char) : ShowsPart guard held (.comment text) []
  | plain (text : List Char) : ShowsPart guard held (.plain text) []
  | opening (name : List Char) (attributes : List (List Char × List Char)) :
      ShowsPart guard held (.opening name attributes) [.opening name]
  | closing (name : List Char) : ShowsPart guard held (.closing name) [.closing name]
  | holds {condition : List Char} {body : List Part} {tags : List Tag}
      (free : condition = guard → held = true) (inner : Shows guard held body tags) :
      ShowsPart guard held (.enclosed .condition condition body) tags
  | fails {condition : List Char} (body : List Part) (free : condition = guard → held = false) :
      ShowsPart guard held (.enclosed .condition condition body) []
  /-- The body of a loop is shown once for every item. -/
  | rounds {header : List Char} {body : List Part} {rounds : List (List Tag)}
      (inner : ∀ tags ∈ rounds, Shows guard held body tags) :
      ShowsPart guard held (.enclosed .loop header body) rounds.flatten

/-- Parts are shown one after the other. -/
inductive Shows (guard : List Char) (held : Bool) : List Part → List Tag → Prop where
  | nil : Shows guard held [] []
  | cons {part : Part} {rest : List Part} {first others : List Tag}
      (here : ShowsPart guard held part first) (later : Shows guard held rest others) :
      Shows guard held (part :: rest) (first ++ others)

end

/-- Every element is closed inside of the element in which it was opened. -/
inductive Nested : List Tag → Prop where
  | nil : Nested []
  | element {name : List Char} {inner rest : List Tag} : Nested inner → Nested rest →
      Nested (.opening name :: (inner ++ .closing name :: rest))

theorem Nested.append {front back : List Tag} (first : Nested front) (second : Nested back) :
    Nested (front ++ back) := by
  induction first with
  | nil => exact second
  | element inner _ _ ih =>
      rw [List.cons_append, List.append_assoc, List.cons_append]
      exact .element inner ih

variable {guard : List Char} {held : Bool} {front back body : List Part} {tags : List Tag}

theorem Shows.split (shows : Shows guard held (front ++ back) tags) :
    ∃ first second, tags = first ++ second ∧ Shows guard held front first ∧
      Shows guard held back second := by
  induction front generalizing tags with
  | nil => exact ⟨[], tags, rfl, .nil, shows⟩
  | cons part rest ih =>
      obtain _ | ⟨here, later⟩ := shows
      obtain ⟨first, second, rfl, shown, behind⟩ := ih later
      exact ⟨_, second, (List.append_assoc _ _ _).symm, .cons here shown, behind⟩

theorem Shows.single {part : Part} (shows : Shows guard held [part] tags) :
    ShowsPart guard held part tags := by
  obtain _ | ⟨here, _ | _⟩ := shows
  rwa [List.append_nil]

mutual

/-- A part can be shown, whatever the outcome of the guard. -/
theorem exists_showsPart (guard : List Char) (held : Bool) :
    (part : Part) → ∃ tags, ShowsPart guard held part tags
  | .text c => ⟨[], .text c⟩
  | .comment text => ⟨[], .comment text⟩
  | .plain text => ⟨[], .plain text⟩
  | .opening name attributes => ⟨_, .opening name attributes⟩
  | .closing name => ⟨_, .closing name⟩
  | .enclosed .condition condition body => by
    cases held with
    | true =>
        obtain ⟨tags, inner⟩ := exists_shows guard true body
        exact ⟨tags, .holds (fun _ => rfl) inner⟩
    | false => exact ⟨[], .fails body fun _ => rfl⟩
  | .enclosed .loop header body => ⟨_, @ShowsPart.rounds guard held header body [] (by simp)⟩

/-- Parts can be shown, whatever the outcome of the guard. -/
theorem exists_shows (guard : List Char) (held : Bool) :
    (parts : List Part) → ∃ tags, Shows guard held parts tags
  | [] => ⟨[], .nil⟩
  | part :: rest => by
    obtain ⟨first, here⟩ := exists_showsPart guard held part
    obtain ⟨others, later⟩ := exists_shows guard held rest
    exact ⟨_, .cons here later⟩

end

/-! ## Parts that are shown nested -/

/-- Whatever is shown of some parts is nested. -/
def ShownNested (guard : List Char) (held : Bool) (parts : List Part) : Prop :=
  ∀ tags, Shows guard held parts tags → Nested tags

theorem ShownNested.append (first : ShownNested guard held front)
    (second : ShownNested guard held back) : ShownNested guard held (front ++ back) := by
  intro tags shows
  obtain ⟨_, _, rfl, shown, behind⟩ := shows.split
  exact (first _ shown).append (second _ behind)

theorem shownNested_comment (text : List Char) : ShownNested guard held [.comment text] := by
  intro tags shows
  cases shows.single
  exact .nil

theorem shownNested_plain (text : List Char) : ShownNested guard held [.plain text] := by
  intro tags shows
  cases shows.single
  exact .nil

theorem ShownNested.condition (inner : ShownNested guard held body) (condition : List Char) :
    ShownNested guard held [.enclosed .condition condition body] := by
  intro tags shows
  cases shows.single with
  | holds free shown => exact inner tags shown
  | fails body free => exact .nil

theorem ShownNested.loop (inner : ShownNested guard held body) (header : List Char) :
    ShownNested guard held [.enclosed .loop header body] := by
  have together (rounds : List (List Tag)) (shown : ∀ tags ∈ rounds, Shows guard held body tags) :
      Nested rounds.flatten := by
    induction rounds with
    | nil => exact .nil
    | cons round later ih =>
        obtain ⟨here, others⟩ := List.forall_mem_cons.mp shown
        exact (inner round here).append (ih others)
  intro tags shows
  cases shows.single with
  | rounds shown => exact together _ shown

/-- What stands between the tags of an element. -/
theorem ShownNested.element (inner : ShownNested guard held body) (name : List Char)
    (attributes : List (List Char × List Char)) :
    ShownNested guard held (.opening name attributes :: (body ++ [.closing name])) := by
  intro tags shows
  obtain _ | ⟨opened, later⟩ := shows
  cases opened
  obtain ⟨shown, last, rfl, between, behind⟩ := later.split
  cases behind.single
  exact .element (inner shown between) .nil

/-- An element that is opened and closed under the guard. Both tags are shown or none is. -/
theorem ShownNested.guarded (inner : ShownNested guard held body) (name : List Char)
    (attributes : List (List Char × List Char)) :
    ShownNested guard held (.enclosed .condition guard [.opening name attributes] ::
      (body ++ [.enclosed .condition guard [.closing name]])) := by
  intro tags shows
  obtain _ | ⟨opened, later⟩ := shows
  obtain ⟨middle, last, rfl, between, behind⟩ := later.split
  have nested := inner middle between
  cases opened with
  | holds free shown =>
      cases behind.single with
      | holds _ closed =>
          cases shown.single
          cases closed.single
          exact .element nested .nil
      | fails _ notFree =>
          rw [free rfl] at notFree
          cases notFree rfl
  | fails _ free =>
      cases behind.single with
      | holds notFree _ =>
          rw [free rfl] at notFree
          cases notFree rfl
      | fails => rwa [List.nil_append, List.append_nil]

end BlockForge.Markup
