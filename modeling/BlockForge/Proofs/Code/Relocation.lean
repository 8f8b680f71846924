/-
# Layouts at any level

Steps that are laid out somewhere inside a file write what they write at its margin, moved to the
right as a whole. Indentation is decided twice on the way, by the layout for each line that it
writes and by the indentation of a text for each line that it finds, and both leave blank lines
alone.

This takes steps that never go further out than where they start. At the margin a step outward is
lost, while inside a file it is not, so steps that go further out do not end at the level that
their start asks for, and the condition cannot be left out.
-/

import BlockForge.Proofs.Text.Lines
import BlockForge.Proofs.Text.Split

namespace BlockForge.Text

variable {columns : Nat} {front back line text : List Char}

/-! ## Lines and their margins -/

theorem isBlankLine_replicate_append (count : Nat) (line : List Char) :
    isBlankLine (List.replicate count ' ' ++ line) = isBlankLine line := by
  have blank : isBlank ' ' = true := by decide
  simp [isBlankLine, blank]

/-- A line moved twice is moved by the sum. -/
theorem indentLine_indentLine (first second : Nat) (line : List Char) :
    indentLine second (indentLine first line) = indentLine (second + first) line := by
  by_cases blank : isBlankLine line
  · simp [indentLine, blank]
  · simp [indentLine, blank, isBlankLine_replicate_append, ← List.append_assoc]

theorem newline_notMem_indentLine (inside : '\n' ∉ line) (columns : Nat) :
    '\n' ∉ indentLine columns line := by
  rw [indentLine]
  split
  · exact inside
  · simpa [List.mem_replicate] using inside

theorem lines_ne_nil (text : List Char) : lines text ≠ [] := splitWhere_ne_nil text

theorem newline_notMem_of_mem_lines (among : line ∈ lines text) : '\n' ∉ line := by
  induction text generalizing line with
  | nil =>
      rw [List.mem_singleton.mp among]
      exact List.not_mem_nil
  | cons c rest ih =>
      by_cases newline : c = '\n'
      · subst newline
        rw [lines_newline] at among
        rcases List.mem_cons.mp among with rfl | later
        · exact List.not_mem_nil
        · exact ih later
      · obtain ⟨first, later, cut⟩ := List.exists_cons_of_ne_nil (lines_ne_nil rest)
        rw [lines_cons newline cut] at among
        rw [cut] at ih
        rcases List.mem_cons.mp among with rfl | behind
        · have own : '\n' ∉ first := ih List.mem_cons_self
          simp [own, Ne.symm newline]
        · exact ih (List.mem_cons_of_mem _ behind)

/-! ## Texts of ended lines -/

/-- A text whose last line is ended. -/
def Ended (text : List Char) : Prop := text = [] ∨ ∃ front, text = front ++ ['\n']

theorem ended_nil : Ended [] := .inl rfl

theorem Ended.append (first : Ended front) (second : Ended back) : Ended (front ++ back) := by
  rcases second with rfl | ⟨inner, rfl⟩
  · rwa [List.append_nil]
  · exact .inr ⟨front ++ inner, (List.append_assoc _ _ _).symm⟩

theorem ended_flatMap {write : List Char → List Char} (each : ∀ line, Ended (write line))
    (ls : List (List Char)) : Ended (ls.flatMap write) := by
  induction ls with
  | nil => exact ended_nil
  | cons first rest ih => exact (each first).append ih

/-- A line is indented as a text. -/
theorem indent_of_notMem (inside : '\n' ∉ line) (columns : Nat) :
    indent columns line = indentLine columns line := by
  have own : lines line = [line] :=
    splitWhere_of_all fun c held => beq_eq_false_iff_ne.mpr fun same => inside (same ▸ held)
  rw [indent, own]
  simp [joinLines]

theorem joinLines_append {first second : List (List Char)} (there : first ≠ [])
    (thereToo : second ≠ []) :
    joinLines (first ++ second) = joinLines first ++ '\n' :: joinLines second := by
  obtain ⟨line, later, rfl⟩ := List.exists_cons_of_ne_nil there
  obtain ⟨next, others, rfl⟩ := List.exists_cons_of_ne_nil thereToo
  rw [List.cons_append, joinLines_cons, joinLines_cons, joinLines_cons]
  simp

/-- What stands before and behind a newline is indented apart. -/
theorem indent_append_newline (columns : Nat) (front back : List Char) :
    indent columns (front ++ '\n' :: back) =
      indent columns front ++ '\n' :: indent columns back := by
  have cut : lines (front ++ '\n' :: back) = lines front ++ lines back :=
    splitWhere_separated (by rfl) front back
  rw [indent, cut, List.map_append, joinLines_append]
  · rfl
  · simpa using lines_ne_nil front
  · simpa using lines_ne_nil back

/-- Behind an ended line, a text is indented on its own. -/
theorem Ended.indent_append (ended : Ended front) (columns : Nat) (back : List Char) :
    indent columns (front ++ back) = indent columns front ++ indent columns back := by
  rcases ended with rfl | ⟨inner, rfl⟩
  · rfl
  · rw [List.append_assoc, List.singleton_append, indent_append_newline, indent_append_newline,
      List.append_assoc]
    rfl

end BlockForge.Text

namespace BlockForge.Code

open BlockForge.Text

/-! ## Conditions on steps -/

mutual

/-- The texts that a step writes as one line are one line. -/
def Step.OneLine : Step → Prop
  | .line text => '\n' ∉ text
  | .lines _ | .blank | .indent | .dedent => True
  | .block header close body => '\n' ∉ header ∧ '\n' ∉ close ∧ OneLineSteps body
  | .apply body => OneLineSteps body

/-- The texts that steps write as one line are one line. -/
def OneLineSteps : List Step → Prop
  | [] => True
  | step :: rest => step.OneLine ∧ OneLineSteps rest

end

/-- One level further out, where there is one. -/
def outward? : Nat → Option Nat
  | 0 => none
  | level + 1 => some level

mutual

/-- The level that a step reaches, unless it goes out of the outermost one. The end of a block
goes out as well. -/
def Step.reach? : Step → Nat → Option Nat
  | .line _, level | .lines _, level | .blank, level => some level
  | .indent, level => some (level + 1)
  | .dedent, level => outward? level
  | .block _ _ body, level => (reachSteps? body (level + 1)).bind outward?
  | .apply body, level => reachSteps? body level

/-- The level that steps reach one after the other, unless one of them goes out of the outermost
one. -/
def reachSteps? : List Step → Nat → Option Nat
  | [], level => some level
  | step :: rest, level => (step.reach? level).bind (reachSteps? rest)

end

/-- Steps that never go further out than where they start. -/
def StaysInside (steps : List Step) : Prop := (reachSteps? steps 0).isSome

/-! ## Levels -/

theorem outward?_eq_some {level reached : Nat} :
    outward? level = some reached ↔ level = reached + 1 := by
  cases level <;> simp [outward?]

theorem outward?_eq_none {level : Nat} : outward? level = none ↔ level = 0 := by
  cases level <;> simp [outward?]

mutual

/-- Where steps stay inside, they do so from further inside. -/
theorem Step.reach?_add (offset : Nat) : (step : Step) → {level reached : Nat} →
    step.reach? level = some reached → step.reach? (offset + level) = some (offset + reached)
  | .line _, _, _, rfl => rfl
  | .lines _, _, _, rfl => rfl
  | .blank, _, _, rfl => rfl
  | .indent, _, _, rfl => rfl
  | .dedent, _, _, inside => by
    rw [Step.reach?, outward?_eq_some] at inside ⊢
    rw [inside, Nat.add_assoc]
  | .block _ _ body, level, _, inside => by
    rw [Step.reach?, Option.bind_eq_some_iff] at inside ⊢
    obtain ⟨inner, within, out⟩ := inside
    rw [outward?_eq_some] at out
    refine ⟨offset + inner, reachSteps?_add offset body within, ?_⟩
    rw [outward?_eq_some, out, Nat.add_assoc]
  | .apply body, _, _, inside => reachSteps?_add offset body inside

theorem reachSteps?_add (offset : Nat) : (steps : List Step) → {level reached : Nat} →
    reachSteps? steps level = some reached →
    reachSteps? steps (offset + level) = some (offset + reached)
  | [], _, _, rfl => rfl
  | step :: rest, _, _, inside => by
    rw [reachSteps?, Option.bind_eq_some_iff] at inside ⊢
    obtain ⟨between, here, later⟩ := inside
    exact ⟨offset + between, step.reach?_add offset here, reachSteps?_add offset rest later⟩

end

variable {columns level : Nat} {header close : List Char} {step : Step} {body rest : List Step}

theorem Step.level_run_block : ((Step.block header close body).run columns level).2 =
    (runSteps columns body (level + 1)).2 - 1 := rfl

theorem level_runSteps_cons : (runSteps columns (step :: rest) level).2 =
    (runSteps columns rest (step.run columns level).2).2 := rfl

mutual

/-- A layout ends at the level that its steps reach. -/
theorem Step.level_run (columns : Nat) : (step : Step) → {level reached : Nat} →
    step.reach? level = some reached → (step.run columns level).2 = reached
  | .line _, _, _, rfl => rfl
  | .lines _, _, _, rfl => rfl
  | .blank, _, _, rfl => rfl
  | .indent, _, _, rfl => rfl
  | .dedent, _, _, inside => by
    rw [Step.reach?, outward?_eq_some] at inside
    rw [Step.run, inside, Nat.add_sub_cancel]
  | .block _ _ body, _, _, inside => by
    rw [Step.reach?, Option.bind_eq_some_iff] at inside
    obtain ⟨inner, within, out⟩ := inside
    rw [outward?_eq_some] at out
    rw [Step.level_run_block, level_runSteps columns body within, out, Nat.add_sub_cancel]
  | .apply body, _, _, inside => level_runSteps columns body inside

theorem level_runSteps (columns : Nat) : (steps : List Step) → {level reached : Nat} →
    reachSteps? steps level = some reached → (runSteps columns steps level).2 = reached
  | [], _, _, rfl => rfl
  | step :: rest, _, _, inside => by
    rw [reachSteps?, Option.bind_eq_some_iff] at inside
    obtain ⟨between, here, later⟩ := inside
    rw [level_runSteps_cons, step.level_run columns here]
    exact level_runSteps columns rest later

end

mutual

/-- Once a step outward is lost, starting one level further in makes no difference to where a
layout ends. -/
theorem Step.level_run_succ (columns : Nat) : (step : Step) → {level : Nat} →
    step.reach? level = none →
    (step.run columns (level + 1)).2 = (step.run columns level).2
  | .dedent, _, lost => by
    rw [Step.reach?, outward?_eq_none] at lost
    rw [lost]
    rfl
  | .block _ _ body, level, lost => by
    rw [Step.reach?] at lost
    rw [Step.level_run_block, Step.level_run_block]
    cases within : reachSteps? body (level + 1) with
    | none => rw [level_runSteps_succ columns body within]
    | some inner =>
        rw [within, Option.bind_some, outward?_eq_none] at lost
        have further := level_runSteps columns body (reachSteps?_add 1 body within)
        rw [Nat.add_comm 1] at further
        rw [further, level_runSteps columns body within, lost]
  | .apply body, _, lost => level_runSteps_succ columns body lost

theorem level_runSteps_succ (columns : Nat) : (steps : List Step) → {level : Nat} →
    reachSteps? steps level = none →
    (runSteps columns steps (level + 1)).2 = (runSteps columns steps level).2
  | step :: rest, level, lost => by
    rw [reachSteps?] at lost
    rw [level_runSteps_cons, level_runSteps_cons]
    cases here : step.reach? level with
    | none => rw [step.level_run_succ columns here]
    | some between =>
        rw [here, Option.bind_some] at lost
        have further := step.level_run columns (step.reach?_add 1 here)
        rw [Nat.add_comm 1, Nat.add_comm 1] at further
        rw [further, step.level_run columns here]
        exact level_runSteps_succ columns rest lost

end

/-! ## Texts -/

theorem Step.text_run_block : ((Step.block header close body).run columns level).1 =
    lineAt columns level header ++ (runSteps columns body (level + 1)).1 ++
      lineAt columns ((runSteps columns body (level + 1)).2 - 1) close := rfl

theorem text_runSteps_cons : (runSteps columns (step :: rest) level).1 =
    (step.run columns level).1 ++ (runSteps columns rest (step.run columns level).2).1 := rfl

theorem ended_lineAt (columns level : Nat) (text : List Char) : Ended (lineAt columns level text) :=
  .inr ⟨_, rfl⟩

mutual

/-- A step ends the lines that it writes. -/
theorem Step.ended_run : (step : Step) → (level : Nat) → Ended (step.run columns level).1
  | .line text, level => ended_lineAt columns level text
  | .lines _, level => ended_flatMap (ended_lineAt columns level) _
  | .blank, _ => .inr ⟨[], rfl⟩
  | .indent, _ => ended_nil
  | .dedent, _ => ended_nil
  | .block header close body, level =>
    ((ended_lineAt columns level header).append (ended_runSteps body (level + 1))).append
      (ended_lineAt columns _ close)
  | .apply body, level => ended_runSteps body level

theorem ended_runSteps : (steps : List Step) → (level : Nat) →
    Ended (runSteps columns steps level).1
  | [], _ => ended_nil
  | step :: rest, level => (step.ended_run level).append (ended_runSteps rest _)

end

/-- A line at a level, moved to the right by levels, is the line at their sum. -/
theorem indent_lineAt {text : List Char} (inside : '\n' ∉ text) (columns offset level : Nat) :
    Text.indent (columns * offset) (lineAt columns level text) =
      lineAt columns (offset + level) text := by
  rw [lineAt_eq_indentLine, indent_append_newline,
    indent_of_notMem (newline_notMem_indentLine inside _), indentLine_indentLine, ← Nat.mul_add,
    lineAt_eq_indentLine]
  rfl

theorem indent_flatMap_lineAt {ls : List (List Char)} (inside : ∀ line ∈ ls, '\n' ∉ line)
    (columns offset level : Nat) :
    Text.indent (columns * offset) (ls.flatMap (lineAt columns level)) =
      ls.flatMap (lineAt columns (offset + level)) := by
  induction ls with
  | nil => rfl
  | cons line rest ih =>
      obtain ⟨here, later⟩ := List.forall_mem_cons.mp inside
      rw [List.flatMap_cons, (ended_lineAt columns level line).indent_append, indent_lineAt here,
        ih later, List.flatMap_cons]

mutual

/-- What a step writes further inside is what it writes, moved to the right. -/
theorem Step.text_run_add (columns offset : Nat) : (step : Step) → step.OneLine →
    {level reached : Nat} → step.reach? level = some reached →
    (step.run columns (offset + level)).1 =
      Text.indent (columns * offset) (step.run columns level).1
  | .line _, oneLine, level, _, _ => (indent_lineAt oneLine columns offset level).symm
  | .lines _, _, level, _, _ =>
    (indent_flatMap_lineAt (fun _ => newline_notMem_of_mem_lines) columns offset level).symm
  | .blank, _, _, _, _ => rfl
  | .indent, _, _, _, _ => rfl
  | .dedent, _, _, _, _ => rfl
  | .block header close body, ⟨opens, closes, inner⟩, level, _, inside => by
    rw [Step.reach?, Option.bind_eq_some_iff] at inside
    obtain ⟨last, within, out⟩ := inside
    rw [outward?_eq_some] at out
    subst out
    have moved := text_runSteps_add columns offset body inner within
    have ending := level_runSteps columns body within
    have endingToo := level_runSteps columns body (reachSteps?_add offset body within)
    rw [← Nat.add_assoc] at moved endingToo
    have opened := ended_lineAt columns level header
    rw [Step.text_run_block, Step.text_run_block, moved, endingToo, ending, Nat.add_succ_sub_one,
      Nat.add_sub_cancel, (opened.append (ended_runSteps body _)).indent_append,
      opened.indent_append, indent_lineAt opens, indent_lineAt closes]
  | .apply body, oneLine, _, _, inside => text_runSteps_add columns offset body oneLine inside

theorem text_runSteps_add (columns offset : Nat) : (steps : List Step) → OneLineSteps steps →
    {level reached : Nat} → reachSteps? steps level = some reached →
    (runSteps columns steps (offset + level)).1 =
      Text.indent (columns * offset) (runSteps columns steps level).1
  | [], _, _, _, _ => rfl
  | step :: rest, ⟨here, later⟩, level, _, inside => by
    rw [reachSteps?, Option.bind_eq_some_iff] at inside
    obtain ⟨between, first, others⟩ := inside
    rw [text_runSteps_cons, text_runSteps_cons, (step.ended_run level).indent_append,
      step.text_run_add columns offset here first, step.level_run columns first,
      step.level_run columns (step.reach?_add offset first),
      text_runSteps_add columns offset rest later others]

end

/-! ## Relocation -/

/-- Steps can be laid out at any level, where they write their text from the margin moved to the
right and reach as much more as they start further in, exactly if they never go further out than
where they start. -/
theorem staysInside_iff_relocatable {steps : List Step} (oneLine : OneLineSteps steps)
    (columns : Nat) :
    StaysInside steps ↔ ∀ level, runSteps columns steps level =
      (Text.indent (columns * level) (runSteps columns steps 0).1,
        level + (runSteps columns steps 0).2) := by
  constructor
  · intro inside level
    obtain ⟨reached, within⟩ := Option.isSome_iff_exists.mp inside
    have moved := text_runSteps_add columns level steps oneLine within
    have ending := level_runSteps columns steps (reachSteps?_add level steps within)
    rw [Nat.add_zero] at moved ending
    rw [level_runSteps columns steps within]
    exact Prod.ext moved ending
  · intro relocated
    rw [StaysInside, Option.isSome_iff_ne_none]
    intro lost
    have same := level_runSteps_succ columns steps lost
    rw [relocated 1] at same
    have further : 1 + (runSteps columns steps 0).2 = (runSteps columns steps 0).2 := same
    omega

/-- Steps with lines that are blank without being empty, a text of several lines, and a step out
of a block that a step back makes up for. -/
def nestedSteps : List Step :=
  [.line "return [".toList,
    .block "'a' => [".toList "],".toList
      [.lines "1,\n\u3000\n\n2,".toList, .dedent, .line "3,".toList, .indent,
        .apply [.blank, .line "  ".toList, .line "\\".toList]],
    .indent, .line "];".toList]

theorem staysInside_iff_relocatable_nestedSteps :
    OneLineSteps nestedSteps ∧ StaysInside nestedSteps ∧
      runSteps classColumns nestedSteps 3 =
        (Text.indent (classColumns * 3) (runSteps classColumns nestedSteps 0).1,
          3 + (runSteps classColumns nestedSteps 0).2) := by
  have oneLine : OneLineSteps nestedSteps := by
    simp [nestedSteps, OneLineSteps, Step.OneLine]
  have inside : StaysInside nestedSteps := rfl
  exact ⟨oneLine, inside, (staysInside_iff_relocatable oneLine classColumns).mp inside 3⟩

end BlockForge.Code
