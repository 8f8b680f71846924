/-
# Source text without the contents of its literals

Erasing the contents of all literals leaves the outline of a source text: the code, and two
quotes for every literal. Two values of a generated array that differ only in their strings
render to source texts of one outline: whatever a string holds, nothing of it reaches the
code around it. Indentation keeps this, since it sees of a literal only that it is there.
-/

import BlockForge.Code.Literal
import BlockForge.Proofs.Code.Rendering

namespace BlockForge.Code

open BlockForge.Text

/-- The source text of a lexeme with the contents of a literal erased. -/
def Lexeme.erased : Lexeme → List Char
  | .code c => [c]
  | .literal _ => quote []

/-- A source text with the contents of its literals erased; none if its last literal is not
closed. -/
def eraseLiterals (source : List Char) : Option (List Char) :=
  (lexemes source).map (·.flatMap Lexeme.erased)

theorem eraseLiterals_append {first second outline later : List Char}
    (erasedFirst : eraseLiterals first = some outline)
    (erasedSecond : eraseLiterals second = some later) :
    eraseLiterals (first ++ second) = some (outline ++ later) := by
  obtain ⟨cut, closed, rfl⟩ := Option.map_eq_some_iff.mp erasedFirst
  obtain ⟨cutLater, closedLater, rfl⟩ := Option.map_eq_some_iff.mp erasedSecond
  rw [eraseLiterals, lexemes_append closed, closedLater, Option.map_some, Option.map_some,
    List.flatMap_append]

/-- Code without literals is its own outline. -/
theorem eraseLiterals_of_no_quote {source : List Char} (noQuote : '\'' ∉ source) :
    eraseLiterals source = some source := by
  rw [eraseLiterals, lexemes_of_no_quote noQuote, Option.map_some, List.flatMap_map]
  exact congrArg some (List.flatMap_singleton' source)

theorem eraseLiterals_quote (text : List Char) : eraseLiterals (quote text) = some (quote []) := by
  have cut := lexemes_quote_append text []
  rw [List.append_nil, lexemes_nil] at cut
  rw [eraseLiterals, cut]
  rfl

/-! ## Outlines of moved text -/

theorem opensBlank_erased (cut : List Lexeme) :
    opensBlank (cut.flatMap Lexeme.erased) = blankAhead cut := by
  induction cut with
  | nil => rfl
  | cons lexeme rest ih =>
      cases lexeme with
      | literal text => exact opensBlank_quote _
      | code c =>
          rw [List.flatMap_cons, Lexeme.erased, List.singleton_append, blankAhead]
          by_cases newline : c = '\n'
          · subst newline
            rw [opensBlank_newline]
            rfl
          · rw [opensBlank_cons newline, ih]
            simp [newline]

theorem margin_erased (columns : Nat) (cut : List Lexeme) :
    margin columns (cut.flatMap Lexeme.erased) =
      (marginLexemes columns cut).flatMap Lexeme.erased := by
  rw [margin_eq, marginLexemes, opensBlank_erased]
  split
  · rfl
  · induction columns with
    | zero => rfl
    | succ columns ih => rw [List.replicate_succ, ih]; rfl

theorem indentRest_erased (columns : Nat) (cut : List Lexeme) :
    indentRest columns (cut.flatMap Lexeme.erased) =
      (indentLexemes columns cut).flatMap Lexeme.erased := by
  induction cut with
  | nil => rfl
  | cons lexeme rest ih =>
      cases lexeme with
      | literal text =>
          rw [indentLexemes, List.flatMap_cons, List.flatMap_cons, ← ih, Lexeme.erased,
            Lexeme.erased]
          exact (indentRest_cons (by decide) columns _).trans
            (congrArg _ (indentRest_cons (by decide) columns _))
      | code c =>
          rw [List.flatMap_cons, Lexeme.erased, List.singleton_append, indentLexemes]
          by_cases newline : c = '\n'
          · subst newline
            rw [indentRest_newline, if_pos rfl, margin_erased, ih, List.flatMap_cons,
              List.flatMap_append]
            rfl
          · rw [indentRest_cons newline, if_neg newline, ih, List.flatMap_cons]
            rfl

/-- Moving a source text moves its outline. -/
theorem eraseLiterals_indent {source outline : List Char}
    (erased : eraseLiterals source = some outline) (columns : Nat) :
    eraseLiterals (indent columns source) = some (indent columns outline) := by
  obtain ⟨cut, closed, rfl⟩ := Option.map_eq_some_iff.mp erased
  rw [eraseLiterals, lexemes_indent closed, Option.map_some, List.flatMap_append,
    indent_eq_margin_append, margin_erased, indentRest_erased]

/-! ## Outlines of values -/

mutual

/-- A value without the contents of its literals. -/
def Literal.outline : Literal → Literal
  | .string _ => .string ""
  | .localized _ => .localized ""
  | .bool value => .bool value
  | .int value => .int value
  | .number value => .number value
  | .expression source =>
    .expression (String.ofList ((eraseLiterals source.toList).getD source.toList))
  | .list items => .list (items.map fun _ => "")
  | .array entries => .array (outlineEntries entries)
  | .inline entries => .inline (outlineEntries entries)

def outlineEntries : List (Option String × Literal) → List (Option String × Literal)
  | [] => []
  | (key, value) :: rest => (key.map fun _ => "", value.outline) :: outlineEntries rest

end

theorem eraseLiterals_localizedCall (text : String) :
    eraseLiterals (localizedCall text) = some (localizedCall "") := by
  have head : eraseLiterals localizer = some localizer :=
    eraseLiterals_of_no_quote (by decide)
  have opens : eraseLiterals ['('] = some ['('] := eraseLiterals_of_no_quote (by decide)
  have closes : eraseLiterals [')'] = some [')'] := eraseLiterals_of_no_quote (by decide)
  rw [localizedCall_eq, localizedCall_eq]
  exact eraseLiterals_append head (eraseLiterals_append opens
    (eraseLiterals_append (eraseLiterals_quote text.toList) closes))

theorem eraseLiterals_keyChars (key : Option String) :
    eraseLiterals (keyChars key) = some (keyChars (key.map fun _ => "")) := by
  cases key with
  | none => exact eraseLiterals_of_no_quote List.not_mem_nil
  | some key =>
      exact eraseLiterals_append (eraseLiterals_quote key.toList)
        (eraseLiterals_of_no_quote (by decide))

theorem eraseLiterals_scalar {spelled : List Char} (scalar : isScalar spelled)
    (negative : Bool) :
    eraseLiterals (signChars negative ++ spelled) = some (signChars negative ++ spelled) := by
  refine eraseLiterals_append (eraseLiterals_of_no_quote ?_)
    (eraseLiterals_of_no_quote (no_quote_of_isScalar scalar))
  cases negative <;> decide

theorem eraseLiterals_list (items : List String) :
    eraseLiterals (commaSeparated (items.map fun item => quote item.toList)) =
      some (commaSeparated ((items.map fun _ => "").map fun item => quote item.toList)) := by
  induction items with
  | nil => exact eraseLiterals_of_no_quote List.not_mem_nil
  | cons item items ih =>
      have first := eraseLiterals_quote item.toList
      cases items with
      | nil =>
          rw [List.map_singleton, List.map_singleton, List.map_singleton, commaSeparated,
            commaSeparated, intercalate_singleton, intercalate_singleton]
          exact first
      | cons next items =>
          have comma : eraseLiterals [',', ' '] = some [',', ' '] :=
            eraseLiterals_of_no_quote (by decide)
          simp only [List.map_cons, commaSeparated, intercalate_cons_cons] at ih ⊢
          exact eraseLiterals_append first (eraseLiterals_append comma ih)

theorem eraseLiterals_brackets {source outline : List Char}
    (erased : eraseLiterals source = some outline) :
    eraseLiterals ('[' :: source ++ [']']) = some ('[' :: outline ++ [']']) := by
  have opens : eraseLiterals ['['] = some ['['] := eraseLiterals_of_no_quote (by decide)
  have closes : eraseLiterals [']'] = some [']'] := eraseLiterals_of_no_quote (by decide)
  exact eraseLiterals_append (eraseLiterals_append opens erased) closes

/-- A source text that can be read has an outline. -/
theorem eraseLiterals_of_readable {source : String}
    (readable : (readSource source.toList).isSome) :
    eraseLiterals source.toList = some (Literal.expression source).outline.render := by
  obtain ⟨term, read⟩ := Option.isSome_iff_exists.mp readable
  obtain ⟨tokens, scanned, _⟩ := readSource_eq_some_iff.mp read
  obtain ⟨cut, closed, _⟩ := Option.map_eq_some_iff.mp scanned
  have erased : eraseLiterals source.toList = some (cut.flatMap Lexeme.erased) := by
    rw [eraseLiterals, closed, Option.map_some]
  rw [Literal.outline, Literal.render, erased, Option.getD_some, String.toList_ofList]

mutual

/-- The outline of a rendered value is the rendered outline of the value. -/
theorem Literal.eraseLiterals_render :
    (value : Literal) → Readable value.sources →
      eraseLiterals value.render = some value.outline.render
  | .string text, _ => eraseLiterals_quote text.toList
  | .localized text, _ => eraseLiterals_localizedCall text
  | .bool value, _ => by
      cases value with
      | true => exact eraseLiterals_scalar (show isScalar "true".toList by decide) false
      | false => exact eraseLiterals_scalar (show isScalar "false".toList by decide) false
  | .int value, _ => by
      obtain ⟨negative, spelled, written, scalar⟩ := intChars_eq_sign_append value
      rw [Literal.outline, Literal.render, written]
      exact eraseLiterals_scalar scalar negative
  | .number value, _ => by
      obtain ⟨negative, spelled, written, scalar⟩ := number_eq_sign_append value
      rw [Literal.outline, Literal.render, written]
      exact eraseLiterals_scalar scalar negative
  | .expression source, readable =>
      eraseLiterals_of_readable (readable source (List.mem_singleton_self _))
  | .list items, _ => eraseLiterals_brackets (eraseLiterals_list items)
  | .inline entries, readable => eraseLiterals_brackets (eraseLiterals_inline entries readable)
  | .array entries, readable => by
      have body := eraseLiterals_lines entries readable
      cases entries with
      | nil => exact eraseLiterals_of_no_quote (by decide)
      | cons first rest =>
          have opens : eraseLiterals ['[', '\n'] = some ['[', '\n'] :=
            eraseLiterals_of_no_quote (by decide)
          have closes : eraseLiterals ['\n', ']'] = some ['\n', ']'] :=
            eraseLiterals_of_no_quote (by decide)
          have moved := eraseLiterals_indent body nestedColumns
          exact eraseLiterals_append (eraseLiterals_append opens moved) closes

theorem eraseLiterals_lines :
    (entries : List (Option String × Literal)) → Readable (entrySources entries) →
      eraseLiterals (joinLines (renderLines entries)) =
        some (joinLines (renderLines (outlineEntries entries)))
  | [], _ => eraseLiterals_of_no_quote List.not_mem_nil
  | (key, value) :: rest, readable => by
      rw [entrySources, Readable, List.forall_mem_append] at readable
      have comma : eraseLiterals [','] = some [','] := eraseLiterals_of_no_quote (by decide)
      have entry := eraseLiterals_append (eraseLiterals_append (eraseLiterals_keyChars key)
        (value.eraseLiterals_render readable.1)) comma
      have body := eraseLiterals_lines rest readable.2
      cases rest with
      | nil =>
          simp only [outlineEntries, renderLines, joinLines, intercalate_singleton]
          exact entry
      | cons next rest =>
          obtain ⟨nextKey, nextValue⟩ := next
          have newline : eraseLiterals ['\n'] = some ['\n'] :=
            eraseLiterals_of_no_quote (by decide)
          simp only [outlineEntries, renderLines, joinLines, intercalate_cons_cons] at body ⊢
          exact eraseLiterals_append entry (eraseLiterals_append newline body)

theorem eraseLiterals_inline :
    (entries : List (Option String × Literal)) → Readable (entrySources entries) →
      eraseLiterals (commaSeparated (renderInline entries)) =
        some (commaSeparated (renderInline (outlineEntries entries)))
  | [], _ => eraseLiterals_of_no_quote List.not_mem_nil
  | (key, value) :: rest, readable => by
      rw [entrySources, Readable, List.forall_mem_append] at readable
      have entry := eraseLiterals_append (eraseLiterals_keyChars key)
        (value.eraseLiterals_render readable.1)
      have body := eraseLiterals_inline rest readable.2
      cases rest with
      | nil =>
          simp only [outlineEntries, renderInline, commaSeparated, intercalate_singleton]
          exact entry
      | cons next rest =>
          obtain ⟨nextKey, nextValue⟩ := next
          have comma : eraseLiterals [',', ' '] = some [',', ' '] :=
            eraseLiterals_of_no_quote (by decide)
          simp only [outlineEntries, renderInline, commaSeparated, intercalate_cons_cons] at body ⊢
          exact eraseLiterals_append entry (eraseLiterals_append comma body)

end

end BlockForge.Code
