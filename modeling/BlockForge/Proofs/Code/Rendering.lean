/-
# What is read from a rendered value

A value of a generated array denotes a term, and rendering it makes source text. Reading
the source text gives the term back with its texts moved: an array moves the texts of its
body by the columns of its nesting, once for every array around it, and everything else
is read as it was meant. The shape of the term never changes, and no text changes by more
than the spaces that are put behind its newlines.

Expressions are source text already. What is proved here asks of them that they are one
value, and says that they denote that value.
-/

import BlockForge.Code.Literal
import BlockForge.Proofs.Code.Reader
import Mathlib.Data.List.Forall2

namespace BlockForge.Code

open BlockForge.Text

mutual

/-- The term that a value denotes. -/
def Literal.meant : Literal → Term
  | .string text => .text text.toList
  | .localized text => .localized text.toList
  | .bool value => .scalar (if value then "true".toList else "false".toList)
  | .int value => .scalar (intChars value)
  | .number value => .scalar (number value)
  | .expression source => (readSource source.toList).getD (.array [])
  | .list items => .array (items.map fun item => (none, .text item.toList))
  | .array entries => .array (meantEntries entries)
  | .inline entries => .array (meantEntries entries)

def meantEntries : List (Option String × Literal) → TermEntries
  | [] => []
  | (key, value) :: rest => (key.map String.toList, value.meant) :: meantEntries rest

end

mutual

/-- The term that is read from the source text of a value. -/
def Literal.seen : Literal → Term
  | .string text => .text text.toList
  | .localized text => .localized text.toList
  | .bool value => .scalar (if value then "true".toList else "false".toList)
  | .int value => .scalar (intChars value)
  | .number value => .scalar (number value)
  | .expression source => (readSource source.toList).getD (.array [])
  | .list items => .array (items.map fun item => (none, .text item.toList))
  | .array entries => (Term.array (seenEntries entries)).displace nestedColumns
  | .inline entries => .array (seenEntries entries)

/-- The entries that are read from the body of an array before it is moved. -/
def seenEntries : List (Option String × Literal) → TermEntries
  | [] => []
  | (key, value) :: rest => (key.map String.toList, value.seen) :: seenEntries rest

end

mutual

/-- The expressions in a value. -/
def Literal.sources : Literal → List String
  | .expression source => [source]
  | .array entries => entrySources entries
  | .inline entries => entrySources entries
  | _ => []

def entrySources : List (Option String × Literal) → List String
  | [] => []
  | (_, value) :: rest => value.sources ++ entrySources rest

end

/-- Every expression is one value. -/
def Readable (sources : List String) : Prop :=
  ∀ source ∈ sources, (readSource source.toList).isSome

/-! ## Pieces of source text -/

theorem tokens?_arrow (rest : List Char) :
    tokens? ('=' :: '>' :: ' ' :: rest) = (tokens? rest).map (.plain arrow :: ·) := by
  have alone : tokens? arrow = some [.plain arrow] := by
    rw [tokens?, lexemes_of_no_quote (by decide)]
    rfl
  exact tokens?_word alone rest

theorem tokens?_point (rest : List Char) :
    tokens? ('.' :: ' ' :: rest) = (tokens? rest).map (.plain ['.'] :: ·) := by
  have alone : tokens? ['.'] = some [.plain ['.']] := by
    rw [tokens?, lexemes_of_no_quote (by decide)]
    rfl
  exact tokens?_word alone rest

theorem tokens?_moduleVariable (rest : List Char) :
    tokens? (moduleVariable ++ ' ' :: rest) =
      (tokens? rest).map (.plain moduleVariable :: ·) := by
  have alone : tokens? moduleVariable = some [.plain moduleVariable] := by
    rw [tokens?, lexemes_of_no_quote (by decide)]
    rfl
  exact tokens?_word alone rest

theorem localizedCall_eq (text : String) :
    localizedCall text = localizer ++ '(' :: (quote text.toList ++ [')']) := by
  have spelled (quoted : List Char) :
      "$this->module->l(".toList ++ quoted ++ [')'] = localizer ++ '(' :: (quoted ++ [')']) := by
    have opened : "$this->module->l(".toList = localizer ++ ['('] := by decide
    rw [opened, List.append_assoc, List.append_assoc, List.singleton_append]
  exact spelled (quote text.toList)

theorem tokens?_localizedCall (text : String) :
    tokens? (localizedCall text) =
      some [.plain localizer, .plain ['('], .literal text.toList, .plain [')']] := by
  have head : tokens? localizer = some [.plain localizer] := by
    rw [tokens?, lexemes_of_no_quote (by decide)]
    rfl
  rw [localizedCall_eq, tokens?_append_code head (by decide), tokens?_mark (by decide),
    tokens?_quote_append, tokens?_mark (by decide), tokens?_nil]
  rfl

/-! ## Reading entries -/

/-- A source text is an entry: it leads a reader from the start of an entry to the end of the
value of that entry. -/
def ReadsEntry (source : List Char) (key : Option (List Char)) (value : Term) : Prop :=
  ∃ tokens, tokens? source = some tokens ∧
    ∀ read outer rest,
      readFrom (⟨read, none⟩ :: outer) (.before none) (tokens ++ rest) =
        readFrom (⟨read, key⟩ :: outer) (.after value) rest

/-- A source text is what stands between the brackets of an array. -/
def ReadsBody (source : List Char) (entries : TermEntries) : Prop :=
  ∃ tokens, tokens? source = some tokens ∧
    ∀ read outer rest,
      readFrom (⟨read, none⟩ :: outer) (.before none) (tokens ++ .plain [']'] :: rest) =
        readFrom outer (.after (.array (read.reverse ++ entries))) rest

theorem readsEntry_of_readSource {source : List Char} {value : Term}
    (read : readSource source = some value) (key : Option String) :
    ReadsEntry (keyChars key ++ source) (key.map String.toList) value := by
  obtain ⟨tokens, scanned, readTokens⟩ := readSource_eq_some_iff.mp read
  cases key with
  | none => exact ⟨tokens, scanned, fun before outer rest => readFrom_append readTokens _ rest⟩
  | some key =>
      refine ⟨.literal key.toList :: .plain arrow :: tokens, ?_, fun before outer rest => ?_⟩
      · rw [keyChars, List.append_assoc, tokens?_quote_append, List.cons_append,
          tokens?_gap (by decide)]
        simp only [List.cons_append, List.nil_append, tokens?_arrow, scanned, Option.map_some]
      · exact readFrom_append readTokens (⟨before, some key.toList⟩ :: outer) rest

theorem readsBody_nil : ReadsBody [] [] := by
  refine ⟨[], tokens?_nil, fun read outer rest => ?_⟩
  rw [List.nil_append, List.append_nil]
  exact readFrom_of_advance rfl rest

/-- The last entry of an array needs no comma. -/
theorem readsBody_of_readsEntry {source : List Char} {key : Option (List Char)} {value : Term}
    (entry : ReadsEntry source key value) : ReadsBody source [(key, value)] := by
  obtain ⟨tokens, scanned, reads⟩ := entry
  refine ⟨tokens, scanned, fun read outer rest => ?_⟩
  rw [reads, ← List.reverse_cons]
  exact readFrom_of_advance rfl rest

/-- Behind a comma and white space, or nothing, the array goes on. -/
theorem readsBody_cons {source rest : List Char} {key : Option (List Char)} {value : Term}
    {entries : TermEntries} (entry : ReadsEntry source key value) (body : ReadsBody rest entries)
    (gap : List Char) (white : gap.all isGap) :
    ReadsBody (source ++ ',' :: (gap ++ rest)) ((key, value) :: entries) := by
  obtain ⟨tokens, scanned, reads⟩ := entry
  obtain ⟨later, scannedRest, readsRest⟩ := body
  refine ⟨tokens ++ .plain [','] :: later, ?_, fun read outer rest => ?_⟩
  · rw [tokens?_append_code scanned (by decide), tokens?_mark (by decide), tokens?_gaps white,
      scannedRest]
    rfl
  · rw [List.append_assoc, reads, List.cons_append, readFrom_of_advance rfl,
      OpenArray.add, readsRest]
    simp

theorem readValue_of_readsBody {source : List Char} {entries : TermEntries}
    (body : ReadsBody source entries) :
    ∃ tokens, tokens? source = some tokens ∧
      readValue (.plain ['['] :: (tokens ++ [.plain [']']])) = some (.array entries, []) := by
  obtain ⟨tokens, scanned, reads⟩ := body
  refine ⟨tokens, scanned, ?_⟩
  rw [readValue, readFrom_of_advance rfl, OpenArray.fresh, reads]
  rfl

/-- An array on one line is the array of its body. -/
theorem readSource_brackets {source : List Char} {entries : TermEntries}
    (body : ReadsBody source entries) :
    readSource ('[' :: source ++ [']']) = some (.array entries) := by
  obtain ⟨tokens, scanned, reads⟩ := readValue_of_readsBody body
  refine readSource_eq_some_iff.mpr ⟨_, ?_, reads⟩
  rw [List.cons_append, tokens?_mark (by decide), tokens?_append_code scanned (by decide),
    tokens?_mark (by decide), tokens?_nil]
  rfl

/-- The tokens of an array over several lines, whatever stands behind it. -/
theorem tokens?_nested {source : List Char} {tokens : List Token}
    (scanned : tokens? source = some tokens) (columns : Nat) (gap : List Char)
    (white : gap.all isGap) (rest : List Char) :
    tokens? ('[' :: '\n' :: (indent columns source ++ '\n' :: (gap ++ ']' :: rest))) =
      (tokens? rest).map
        ((Token.plain ['['] :: (tokens ++ [.plain [']']])).map (Token.displace columns) ++ ·) := by
  rw [tokens?_mark (by decide), tokens?_gap (by decide),
    tokens?_append_code (tokens?_indent scanned) (by decide), tokens?_gap (by decide),
    tokens?_gaps white, tokens?_mark (by decide)]
  cases tokens? rest with
  | none => rfl
  | some later => simp [Token.displace]

/-- An array over several lines is the array of its body, moved. -/
theorem readSource_nested {source : List Char} {entries : TermEntries}
    (body : ReadsBody source entries) (columns : Nat) :
    readSource ('[' :: '\n' :: indent columns source ++ ['\n', ']']) =
      some ((Term.array entries).displace columns) := by
  obtain ⟨tokens, scanned, reads⟩ := readValue_of_readsBody body
  have nested := tokens?_nested scanned columns [] (by simp) []
  rw [tokens?_nil, Option.map_some, List.append_nil] at nested
  exact readSource_eq_some_iff.mpr ⟨_, nested, readValue_displace columns reads⟩

/-! ## Reading values -/

theorem readSource_quote (text : List Char) : readSource (quote text) = some (.text text) := by
  have scanned := tokens?_quote_append text []
  rw [List.append_nil, tokens?_nil] at scanned
  exact readSource_eq_some_iff.mpr ⟨_, scanned, rfl⟩

theorem readSource_localizedCall (text : String) :
    readSource (localizedCall text) = some (.localized text.toList) := by
  have calls : advance [] (.before none) (.plain localizer) = some ([], .called none) := by
    rw [advance, if_neg (by decide), if_pos rfl]
  refine readSource_eq_some_iff.mpr ⟨_, tokens?_localizedCall text, ?_⟩
  rw [readValue, readFrom_of_advance calls, readFrom_of_advance rfl, readFrom_of_advance rfl,
    readFrom_of_advance rfl]
  rfl

theorem advance_scalar {spelled : List Char} (scalar : isScalar spelled)
    (outer : List OpenArray) :
    advance outer (.before none) (.plain spelled) = some (outer, .after (.scalar spelled)) := by
  have differs {other : List Char} (noScalar : isScalar other = false) : spelled ≠ other := by
    rintro rfl
    rw [noScalar] at scalar
    cases scalar
  rw [advance, if_neg (differs (by decide)), if_neg (differs (by decide)), Option.isNone_none,
    if_pos rfl, openValue.eq_def, if_neg (differs (by decide)), if_neg (differs (by decide)),
    if_pos scalar]

/-- A number or a constant is read as it stands, with the sign before it. -/
theorem readSource_scalar {spelled : List Char} (scalar : isScalar spelled) (negative : Bool) :
    readSource (signChars negative ++ spelled) = some (.scalar (signChars negative ++ spelled)) := by
  have scanned := tokens?_of_isScalar scalar
  cases negative with
  | false =>
      refine readSource_eq_some_iff.mpr ⟨_, scanned, ?_⟩
      rw [readValue, readFrom_of_advance (advance_scalar scalar [])]
      rfl
  | true =>
      refine readSource_eq_some_iff.mpr ⟨[.plain ['-'], .plain spelled], ?_, ?_⟩
      · rw [signChars, if_pos rfl, List.singleton_append, tokens?_mark (by decide), scanned]
        rfl
      · have sign : advance [] (.before none) (.plain ['-']) = some ([], .negative) := rfl
        have digits : advance [] .negative (.plain spelled) =
            some ([], .after (.scalar ('-' :: spelled))) := by
          rw [advance, if_pos scalar]
        rw [readValue, readFrom_of_advance sign, readFrom_of_advance digits]
        rfl

theorem intercalate_cons_cons (separator first second : List Char) (later : List (List Char)) :
    separator.intercalate (first :: second :: later) =
      first ++ (separator ++ separator.intercalate (second :: later)) := by
  simp [List.intercalate, List.intersperse]

theorem intercalate_singleton (separator only : List Char) :
    separator.intercalate [only] = only := by
  simp [List.intercalate]

/-- A list on one line is an array of literals without keys. -/
theorem readsBody_list (items : List String) :
    ReadsBody (commaSeparated (items.map fun item => quote item.toList))
      (items.map fun item => (none, .text item.toList)) := by
  induction items with
  | nil => exact readsBody_nil
  | cons item items ih =>
      have entry := readsEntry_of_readSource (readSource_quote item.toList) none
      cases items with
      | nil =>
          rw [List.map_singleton, commaSeparated, intercalate_singleton]
          exact readsBody_of_readsEntry entry
      | cons next items =>
          rw [List.map_cons, List.map_cons, commaSeparated, intercalate_cons_cons]
          exact readsBody_cons entry ih [' '] (by decide)

mutual

/-- Reading a rendered value gives the term that is seen in it. -/
theorem Literal.readSource_render :
    (value : Literal) → Readable value.sources → readSource value.render = some value.seen
  | .string text, _ => readSource_quote text.toList
  | .localized text, _ => readSource_localizedCall text
  | .bool value, _ => by
      cases value with
      | true => exact readSource_scalar (by decide) false
      | false => exact readSource_scalar (by decide) false
  | .int value, _ => by
      obtain ⟨negative, spelled, written, scalar⟩ := intChars_eq_sign_append value
      rw [Literal.render, Literal.seen, written, readSource_scalar scalar]
  | .number value, _ => by
      obtain ⟨negative, spelled, written, scalar⟩ := number_eq_sign_append value
      rw [Literal.render, Literal.seen, written, readSource_scalar scalar]
  | .expression source, readable => by
      obtain ⟨term, read⟩ := Option.isSome_iff_exists.mp (readable source (List.mem_singleton_self _))
      rw [Literal.render, Literal.seen, read, Option.getD_some]
  | .list items, _ => readSource_brackets (readsBody_list items)
  | .inline entries, readable => readSource_brackets (readsBody_inline entries readable)
  | .array entries, readable => by
      have body := readsBody_lines entries readable
      cases entries with
      | nil => exact readSource_brackets readsBody_nil
      | cons first rest => exact readSource_nested body nestedColumns

/-- The lines of an array are its entries. -/
theorem readsBody_lines :
    (entries : List (Option String × Literal)) → Readable (entrySources entries) →
      ReadsBody (joinLines (renderLines entries)) (seenEntries entries)
  | [], _ => readsBody_nil
  | (key, value) :: rest, readable => by
      rw [entrySources, Readable, List.forall_mem_append] at readable
      have entry := readsEntry_of_readSource (value.readSource_render readable.1) key
      have body := readsBody_lines rest readable.2
      cases rest with
      | nil =>
          have last := readsBody_cons entry readsBody_nil [] (by decide)
          rw [renderLines, renderLines, joinLines, intercalate_singleton]
          exact last
      | cons next rest =>
          have joined := readsBody_cons entry body ['\n'] (by decide)
          rw [renderLines, renderLines, joinLines, intercalate_cons_cons, ← renderLines, ← joinLines,
            List.append_assoc]
          exact joined

/-- The pieces of an array on one line are its entries. -/
theorem readsBody_inline :
    (entries : List (Option String × Literal)) → Readable (entrySources entries) →
      ReadsBody (commaSeparated (renderInline entries)) (seenEntries entries)
  | [], _ => readsBody_nil
  | (key, value) :: rest, readable => by
      rw [entrySources, Readable, List.forall_mem_append] at readable
      have entry := readsEntry_of_readSource (value.readSource_render readable.1) key
      have body := readsBody_inline rest readable.2
      cases rest with
      | nil =>
          rw [renderInline, renderInline, commaSeparated, intercalate_singleton]
          exact readsBody_of_readsEntry entry
      | cons next rest =>
          rw [renderInline, renderInline, commaSeparated, intercalate_cons_cons, ← renderInline]
          exact readsBody_cons entry body [' '] (by decide)

end

/-! ## What was meant and what is seen -/

mutual

/-- What is seen has the shape of what was meant. -/
theorem Literal.shape_seen : (value : Literal) → value.seen.shape = value.meant.shape
  | .string _ => rfl
  | .localized _ => rfl
  | .bool _ => rfl
  | .int _ => rfl
  | .number _ => rfl
  | .expression _ => rfl
  | .list _ => rfl
  | .array entries => by
      rw [Literal.seen, Term.displace, Term.shape_mapTexts]
      exact congrArg Term.array (shape_seenEntries entries)
  | .inline entries => congrArg Term.array (shape_seenEntries entries)

theorem shape_seenEntries :
    (entries : List (Option String × Literal)) →
      mapEntryTexts (fun _ => []) (seenEntries entries) =
        mapEntryTexts (fun _ => []) (meantEntries entries)
  | [] => rfl
  | (key, value) :: rest => by
      have sameShape := value.shape_seen
      rw [Term.shape, Term.shape] at sameShape
      rw [seenEntries, meantEntries, mapEntryTexts, mapEntryTexts, sameShape,
        shape_seenEntries rest]

end

/-- One text is another one moved to the right. -/
def Moved (text moved : List Char) : Prop :=
  ∃ columns, moved = displace columns text

/-- A move does no more than to put spaces behind newlines. -/
theorem Moved.spacedOut {text moved : List Char} (same : Moved text moved) :
    SpacedOut text moved := by
  obtain ⟨columns, rfl⟩ := same
  exact spacedOut_displace columns text

theorem moved_refl (text : List Char) : Moved text text :=
  ⟨0, (displace_zero text).symm⟩

theorem forall₂_moved_refl (texts : List (List Char)) : List.Forall₂ Moved texts texts :=
  List.forall₂_same.mpr fun text _ => moved_refl text

/-- Texts that have been moved may be moved once more. -/
theorem forall₂_moved_map {texts seen : List (List Char)} (moved : List.Forall₂ Moved texts seen)
    (columns : Nat) : List.Forall₂ Moved texts (seen.map (displace columns)) := by
  rw [List.forall₂_map_right_iff]
  refine moved.imp fun text other same => ?_
  obtain ⟨before, rfl⟩ := same
  exact ⟨before + columns, displace_displace before columns text⟩

mutual

/-- The texts that are seen are those that were meant, each of them moved. -/
theorem Literal.texts_seen :
    (value : Literal) → List.Forall₂ Moved value.meant.texts value.seen.texts
  | .string _ => forall₂_moved_refl _
  | .localized _ => forall₂_moved_refl _
  | .bool _ => forall₂_moved_refl _
  | .int _ => forall₂_moved_refl _
  | .number _ => forall₂_moved_refl _
  | .expression _ => forall₂_moved_refl _
  | .list _ => forall₂_moved_refl _
  | .array entries => by
      rw [Literal.seen, Term.displace, Term.texts_mapTexts]
      exact forall₂_moved_map (texts_seenEntries entries) nestedColumns
  | .inline entries => texts_seenEntries entries

theorem texts_seenEntries :
    (entries : List (Option String × Literal)) →
      List.Forall₂ Moved (entryTexts (meantEntries entries)) (entryTexts (seenEntries entries))
  | [] => .nil
  | (key, value) :: rest => by
      rw [meantEntries, seenEntries, entryTexts, entryTexts]
      exact List.rel_append (List.rel_append (forall₂_moved_refl _) value.texts_seen)
        (texts_seenEntries rest)

end

mutual

/-- Moved source text denotes what was meant exactly if no text holds a newline. -/
theorem Literal.displace_seen_eq_meant_iff {columns : Nat} (moved : 0 < columns) :
    (value : Literal) →
      (value.seen.displace columns = value.meant ↔ ∀ text ∈ value.meant.texts, '\n' ∉ text)
  | .string _ => Term.displace_eq_self_iff moved _
  | .localized _ => Term.displace_eq_self_iff moved _
  | .bool _ => Term.displace_eq_self_iff moved _
  | .int _ => Term.displace_eq_self_iff moved _
  | .number _ => Term.displace_eq_self_iff moved _
  | .expression _ => Term.displace_eq_self_iff moved _
  | .list _ => Term.displace_eq_self_iff moved _
  | .array entries => by
      rw [Literal.seen, Term.displace_displace, Literal.meant, Term.displace, Term.mapTexts,
        Term.array.injEq, Term.texts]
      exact displace_seenEntries_eq_meantEntries_iff (Nat.add_pos_right nestedColumns moved) entries
  | .inline entries => by
      rw [Literal.seen, Literal.meant, Term.displace, Term.mapTexts, Term.array.injEq, Term.texts]
      exact displace_seenEntries_eq_meantEntries_iff moved entries

theorem displace_seenEntries_eq_meantEntries_iff {columns : Nat} (moved : 0 < columns) :
    (entries : List (Option String × Literal)) →
      (mapEntryTexts (displace columns) (seenEntries entries) = meantEntries entries ↔
        ∀ text ∈ entryTexts (meantEntries entries), '\n' ∉ text)
  | [] => by simp [seenEntries, meantEntries, mapEntryTexts, entryTexts]
  | (key, value) :: rest => by
      have keys : (key.map String.toList).map (displace columns) = key.map String.toList ↔
          ∀ text ∈ (key.map String.toList).toList, '\n' ∉ text := by
        cases key with
        | none => simp
        | some key => simp [displace_eq_self_iff moved]
      have sameValue := value.displace_seen_eq_meant_iff moved
      rw [Term.displace] at sameValue
      rw [seenEntries, meantEntries, mapEntryTexts, List.cons.injEq, Prod.mk.injEq, keys,
        sameValue, displace_seenEntries_eq_meantEntries_iff moved rest, entryTexts,
        List.forall_mem_append, List.forall_mem_append]

end

end BlockForge.Code
