/-
# Values in one piece read back

A value that is written in one piece is read as itself, whatever may follow a value. The induction
is over the value, and for a list or a table over what is left of it. Between its parts stands only
what a reader passes over, and no part starts with what could end the whole.

What cannot be written is left out: a moment and a float past the largest double are texts of their
own, a table has each of its keys once, and values are not nested deeper than a reader goes.
-/

import BlockForge.Proofs.Json.Rearranging
import BlockForge.Proofs.Toml.Scalar

namespace BlockForge.Toml

open BlockForge.Json (keysOf)

/-! ## Values that can be read back -/

mutual

/-- A value of data that is nested at most as deep as the levels say, each key of a table standing
there once. -/
def Value.Fits : Nat → Value → Prop
  | _, .outsized _ => False
  | _, .moment _ => False
  | levels, .array items => 0 < levels ∧ ItemsFit (levels - 1) items
  | levels, .table entries =>
    0 < levels ∧ (keysOf entries).Nodup ∧ EntriesFit (levels - 1) entries
  | _, _ => True

def ItemsFit : Nat → List Value → Prop
  | _, [] => True
  | levels, item :: rest => item.Fits levels ∧ ItemsFit levels rest

def EntriesFit : Nat → List (String × Value) → Prop
  | _, [] => True
  | levels, (_, value) :: rest => value.Fits levels ∧ EntriesFit levels rest

end

/-! ## Gaps between the parts of a value -/

/-- A character that is no part of a gap. -/
def isSolid (c : Char) : Bool := !isBlankChar c && c != '#' && c != '\n' && c != '\r'

theorem pastBlanks_solid {c : Char} (solid : isSolid c = true) (rest : List Char) :
    pastBlanks (c :: rest) = c :: rest := by
  have noBlank : isBlankChar c = false := by
    simp only [isSolid, Bool.and_eq_true, Bool.not_eq_true'] at solid
    exact solid.1.1.1
  rw [pastBlanks, List.dropWhile_cons_of_neg (by simp [noBlank])]

/-- No gap goes past another character. -/
theorem pastLines?_of_pastBlanks {c : Char} (solid : isSolid c = true) {text rest : List Char}
    (past : pastBlanks text = c :: rest) (fuel : Nat) :
    pastLines? (fuel + 1) text = some (c :: rest) := by
  simp only [isSolid, Bool.and_eq_true, bne_iff_ne] at solid
  obtain ⟨⟨⟨-, noComment⟩, noBreak⟩, noReturn⟩ := solid
  have comment : pastComment? (c :: rest) = some (c :: rest) := by
    rw [pastComment?]
    simp [noComment]
  rw [pastLines?, past, comment]
  simp only [Option.bind_eq_bind, Option.bind_some]
  split
  · rename_i broken
    exact absurd (List.cons.inj broken).1 noBreak
  · rename_i returned
    exact absurd (List.cons.inj returned).1 noReturn
  · rfl

theorem pastGap?_solid {c : Char} (solid : isSolid c = true) (rest : List Char) :
    pastGap? (c :: rest) = some (c :: rest) :=
  pastLines?_of_pastBlanks solid (pastBlanks_solid solid rest) _

/-- A blank is passed over. -/
theorem pastGap?_blank {c : Char} (solid : isSolid c = true) (rest : List Char) :
    pastGap? (' ' :: c :: rest) = some (c :: rest) :=
  pastLines?_of_pastBlanks solid (pastBlanks_solid solid rest) _

theorem pastLines?_break (fuel : Nat) (text : List Char) :
    pastLines? (fuel + 1) ('\n' :: text) = pastLines? fuel text := rfl

/-- The end of a line is passed over. -/
theorem pastGap?_break {c : Char} (solid : isSolid c = true) (rest : List Char) :
    pastGap? ('\n' :: c :: rest) = some (c :: rest) := by
  rw [pastGap?, List.length_cons, pastLines?_break]
  exact pastLines?_of_pastBlanks solid (pastBlanks_solid solid rest) _

/-! ## Where values and keys start -/

/-- A text that starts with a character of which no gap and no end of a list or table is made. -/
def Begins (text : List Char) : Prop :=
  ∃ c rest, text = c :: rest ∧ isSolid c = true ∧ c ≠ ']' ∧ c ≠ '\x7d'

theorem Begins.append {text : List Char} (begins : Begins text) (rest : List Char) :
    Begins (text ++ rest) := by
  obtain ⟨c, more, rfl, solid⟩ := begins
  exact ⟨c, more ++ rest, rfl, solid⟩

section Gaps

variable {text : List Char} (begins : Begins text)

include begins

theorem Begins.gap : pastGap? text = some text := by
  obtain ⟨c, rest, rfl, solid, -⟩ := begins
  exact pastGap?_solid solid rest

/-- A blank is passed over. -/
theorem Begins.gap_blank : pastGap? (' ' :: text) = some text := by
  obtain ⟨c, rest, rfl, solid, -⟩ := begins
  exact pastLines?_of_pastBlanks solid (pastBlanks_solid solid rest) _

/-- The end of a line is passed over together with the columns before an item. -/
theorem Begins.gap_columns : pastGap? ('\n' :: (itemColumns ++ text)) = some text := by
  obtain ⟨c, rest, rfl, solid, -⟩ := begins
  have past : pastBlanks (itemColumns ++ c :: rest) = c :: rest := pastBlanks_solid solid rest
  rw [pastGap?, List.length_cons, pastLines?_break]
  exact pastLines?_of_pastBlanks solid past _

end Gaps

theorem begins_stringChars (text : List Char) : Begins (stringChars text) := by
  cases style : quotingOf text <;>
    simp only [stringChars, style, Quoting.quotes, List.cons_append, List.nil_append] <;>
    exact ⟨_, _, rfl, by decide⟩

theorem Unquoted.begins {text : List Char} (unquoted : Unquoted text) : Begins text := by
  obtain ⟨nonempty, plain⟩ := unquoted
  obtain ⟨c, rest, rfl⟩ := List.exists_cons_of_ne_nil nonempty
  have inside := (plain c List.mem_cons_self).1
  refine ⟨c, rest, rfl, ?_, (Text.ne_of_kind rfl inside).symm, (Text.ne_of_kind rfl inside).symm⟩
  simp only [endsScalar, Bool.or_eq_false_iff, beq_eq_false_iff_ne] at inside
  simp [isSolid, isBlankChar, inside]

theorem begins_listChars (items : List (List Char)) : Begins (listChars items) := by
  unfold listChars
  split <;> exact ⟨_, _, rfl, by decide⟩

theorem begins_inlineTableChars (entries : List (List Char)) :
    Begins (inlineTableChars entries) := by
  unfold inlineTableChars
  split <;> exact ⟨_, _, rfl, by decide⟩

theorem Value.begins {levels : Nat} : {v : Value} → v.Fits levels → Begins v.chars
  | .string text, _ => begins_stringChars text.toList
  | .integer i, _ => (scalar?_intChars i).2.begins
  | .float x, _ => (scalar?_float x).2.begins
  | .bool true, _ => ⟨_, _, rfl, by decide⟩
  | .bool false, _ => ⟨_, _, rfl, by decide⟩
  | .array _, _ => begins_listChars _
  | .table _, _ => begins_inlineTableChars _

/-- A character that a key may be written with first. -/
def startsKey (c : Char) : Bool := isBareChar c || c == '"'

theorem exists_keyChars_eq (key : String) :
    ∃ c rest, keyChars key = c :: rest ∧ startsKey c = true := by
  rw [keyChars]
  split
  · rename_i bare
    obtain ⟨c, rest, first, bare⟩ := exists_cons_of_bare bare
    rw [first]
    exact ⟨c, rest, rfl, by rw [startsKey, bare c List.mem_cons_self, Bool.true_or]⟩
  · exact ⟨_, _, rfl, by decide⟩

theorem begins_of_startsKey {c : Char} (starts : startsKey c = true) (rest : List Char) :
    Begins (c :: rest) := by
  refine ⟨c, rest, rfl, ?_, Text.ne_of_kind starts rfl, Text.ne_of_kind starts rfl⟩
  have blank : c ≠ ' ' := Text.ne_of_kind starts rfl
  have tab : c ≠ '\t' := Text.ne_of_kind starts rfl
  have comment : c ≠ '#' := Text.ne_of_kind starts rfl
  have lineEnd : c ≠ '\n' := Text.ne_of_kind starts rfl
  have lineReturn : c ≠ '\r' := Text.ne_of_kind starts rfl
  simp [isSolid, isBlankChar, blank, tab, comment, lineEnd, lineReturn]

theorem begins_keyChars (key : String) : Begins (keyChars key) := by
  obtain ⟨c, rest, chars, starts⟩ := exists_keyChars_eq key
  rw [chars]
  exact begins_of_startsKey starts rest

/-- A value that is unquoted is read as a scalar. -/
theorem value?_unquoted {text rest : List Char} (unquoted : Unquoted text) (ends : ValueEnd rest)
    (fuel levels : Nat) :
    value? (fuel + 1) levels (text ++ rest) = (scalar? text).map (·, rest) := by
  have cut := scalarText_append unquoted ends
  obtain ⟨nonempty, plain⟩ := unquoted
  obtain ⟨c, more, rfl⟩ := List.exists_cons_of_ne_nil nonempty
  obtain ⟨inside, noBasic, noLiteral⟩ := plain c List.mem_cons_self
  have noBracket : c ≠ '[' := (Text.ne_of_kind rfl inside).symm
  have noBrace : c ≠ '\x7b' := (Text.ne_of_kind rfl inside).symm
  rw [List.cons_append] at cut ⊢
  rw [value?, cut]
  all_goals simp [noBracket, noBrace, noBasic, noLiteral]

/-! ## The parts of lists and tables -/

section Parts

variable {fuel levels : Nat} {text start after rest : List Char} {v : Value}

theorem items?_closed (gap : pastGap? text = some (']' :: rest)) :
    items? (fuel + 1) levels text = some ([], rest) := by
  simp only [items?, gap]

/-- The last item of a list. -/
theorem items?_last (gap : pastGap? text = some start) (begins : Begins start)
    (read : value? fuel levels start = some (v, after))
    (closes : pastGap? after = some (']' :: rest)) :
    items? (fuel + 1) levels text = some ([v], rest) := by
  obtain ⟨c, more, rfl, -, noBracket, -⟩ := begins
  rw [items?, gap]
  simp [noBracket, read, closes]

/-- An item of a list with others after it. -/
theorem items?_next (gap : pastGap? text = some start) (begins : Begins start)
    (read : value? fuel levels start = some (v, after))
    (goesOn : pastGap? after = some (',' :: rest)) {items : List Value} {final : List Char}
    (others : items? fuel levels rest = some (items, final)) :
    items? (fuel + 1) levels text = some (v :: items, final) := by
  obtain ⟨c, more, rfl, -, noBracket, -⟩ := begins
  rw [items?, gap]
  simp [noBracket, read, goesOn, others]

theorem entries?_closed {known : DraftEntries} (gap : pastGap? text = some ('\x7d' :: rest)) :
    entries? (fuel + 1) levels known text = some (known, rest) := by
  simp only [entries?, gap]

variable {known grown : DraftEntries} {path : KeyPath} {assigned : List Char}

/-- The last entry of a table. -/
theorem entries?_last (gap : pastGap? text = some start) (begins : Begins start)
    (key : inlineKey? start = some (path, assigned))
    (read : value? fuel levels assigned = some (v, after))
    (adds : addInline known path v = some grown)
    (closes : pastGap? after = some ('\x7d' :: rest)) :
    entries? (fuel + 1) levels known text = some (grown, rest) := by
  obtain ⟨c, more, rfl, -, -, noBrace⟩ := begins
  rw [entries?, gap]
  simp [noBrace, key, read, adds, closes]

/-- An entry of a table with others after it. -/
theorem entries?_next (gap : pastGap? text = some start) (begins : Begins start)
    (key : inlineKey? start = some (path, assigned))
    (read : value? fuel levels assigned = some (v, after))
    (adds : addInline known path v = some grown)
    (goesOn : pastGap? after = some (',' :: rest)) :
    entries? (fuel + 1) levels known text = entries? fuel levels grown rest := by
  obtain ⟨c, more, rfl, -, -, noBrace⟩ := begins
  rw [entries?, gap]
  simp [noBrace, key, read, adds, goesOn]

end Parts

/-- A key and its equals sign are read up to the value. -/
theorem inlineKey?_keyChars (key : String) {text : List Char} (begins : Begins text) :
    inlineKey? (keyChars key ++ ([' ', '=', ' '] ++ text)) = some (⟨[], key⟩, text) := by
  have read : key? (keyChars key ++ ([' ', '=', ' '] ++ text)) =
      some (key, ' ' :: '=' :: ' ' :: text) := by
    apply key?_keyChars
    rintro d ⟨⟩
    decide
  have path : keyPath? (keyChars key ++ ([' ', '=', ' '] ++ text)) =
      some (⟨[], key⟩, '=' :: ' ' :: text) := by
    show keysUpTo? (79 + 1) _ = _
    rw [keysUpTo?, read]
    rfl
  have sign : pastGap? ('=' :: ' ' :: text) = some ('=' :: ' ' :: text) :=
    pastGap?_solid (by decide) _
  simp only [inlineKey?, path, Option.bind_eq_bind, Option.bind_some, sign, begins.gap_blank]
  rfl

/-- Entries of values in one piece. -/
def draftsOf (entries : Entries) : DraftEntries :=
  entries.map fun entry => (entry.1, .value entry.2)

theorem finishedEntries_draftsOf (entries : Entries) :
    finishedEntries (draftsOf entries) = entries := by
  induction entries with
  | nil => rfl
  | cons entry rest ih =>
      rw [draftsOf, List.map_cons, finishedEntries, Draft.finished]
      exact congrArg _ ih

theorem lookup_eq_none {α : Type} {key : String} {entries : List (String × α)}
    (absent : key ∉ keysOf entries) : entries.lookup key = none := by
  rw [List.lookup_eq_none_iff]
  intro entry held
  rw [bne_iff_ne]
  rintro rfl
  exact absent (List.mem_map_of_mem held)

theorem addInline_absent {known : DraftEntries} {key : String} (absent : key ∉ keysOf known)
    (v : Value) : addInline known ⟨[], key⟩ v = some (known ++ [(key, .value v)]) := by
  show Addition.assign false key v .declared known = _
  simp [Addition.assign, lookup_eq_none absent]

/-! ## Values of each kind -/

theorem exists_stringChars_eq (text : List Char) :
    ∃ c rest, stringChars text = c :: rest ∧ (c = '"' ∨ c = '\'') := by
  cases style : quotingOf text <;>
    simp only [stringChars, style, Quoting.quotes, List.cons_append, List.nil_append] <;>
    exact ⟨_, _, rfl, by decide⟩

/-- A value that starts with a quote is read as a string. -/
theorem value?_string (text : String) {rest : List Char} (ends : ValueEnd rest)
    (fuel levels : Nat) :
    value? (fuel + 1) levels (stringChars text.toList ++ rest) = some (.string text, rest) := by
  have read := quoted?_stringChars text.toList ends.head_ne.1 ends.head_ne.2
  obtain ⟨c, more, starts, quote⟩ := exists_stringChars_eq text.toList
  rw [starts, List.cons_append] at read ⊢
  have given : (quoted? (c :: (more ++ rest))).map
      (fun parts => (Value.string (String.ofList parts.1), parts.2)) =
        some (.string text, rest) := by
    simp only [read, Option.map_some, String.ofList_toList]
  rcases quote with rfl | rfl <;>
    exact given

theorem value?_bool (b : Bool) {rest : List Char} (ends : ValueEnd rest) (fuel levels : Nat) :
    value? (fuel + 1) levels ((Value.bool b).chars ++ rest) = some (.bool b, rest) := by
  have unquoted : Unquoted (Value.bool b).chars := by
    cases b <;> exact ⟨List.cons_ne_nil _ _, List.all_iff_forall_prop.mp (by decide)⟩
  rw [value?_unquoted unquoted ends]
  cases b <;> rfl

theorem value?_list {fuel levels : Nat} (deep : 0 < levels) {text rest : List Char}
    {items : List Value} (read : items? fuel (levels - 1) text = some (items, rest)) :
    value? (fuel + 1) levels ('[' :: text) = some (.array items, rest) := by
  rw [value?, if_neg (Nat.ne_of_gt deep), read, Option.map_some]

theorem value?_inlineTable {fuel levels : Nat} (deep : 0 < levels) {text rest : List Char}
    {entries : Entries}
    (read : entries? fuel (levels - 1) [] text = some (draftsOf entries, rest)) :
    value? (fuel + 1) levels ('\x7b' :: text) = some (.table entries, rest) := by
  simp only [value?, if_neg (Nat.ne_of_gt deep), read, Option.map_some, finishedEntries_draftsOf]

/-- The lines of a list of several items. -/
def rowsOf (items : List Value) : List Char :=
  (itemChars items).flatMap fun item => itemColumns ++ item ++ [',', '\n']

theorem rowsOf_cons (item : Value) (items : List Value) (rest : List Char) :
    rowsOf (item :: items) ++ rest =
      itemColumns ++ (item.chars ++ ',' :: '\n' :: (rowsOf items ++ rest)) := by
  rw [rowsOf, itemChars, List.flatMap_cons]
  simp only [List.append_assoc]
  rfl

/-- The entries of a table with a comma between each two of them. -/
def rowOf (entries : Entries) : List Char := [',', ' '].intercalate (entryChars entries)

theorem rowOf_singleton (key : String) (v : Value) (rest : List Char) :
    rowOf [(key, v)] ++ rest = keyChars key ++ ([' ', '=', ' '] ++ (v.chars ++ rest)) := by
  simp [rowOf, entryChars, List.intercalate]

theorem rowOf_cons (key : String) (v : Value) (second : String × Value) (others : Entries)
    (rest : List Char) : rowOf ((key, v) :: second :: others) ++ rest =
      keyChars key ++ ([' ', '=', ' '] ++
        (v.chars ++ ',' :: ' ' :: (rowOf (second :: others) ++ rest))) := by
  simp [rowOf, entryChars, List.intercalate]

mutual

/-- A value in one piece is read back, if the steps suffice for the text. -/
theorem value?_chars : (v : Value) → {levels fuel : Nat} → {rest : List Char} → v.Fits levels →
    ValueEnd rest → 2 * (v.chars ++ rest).length < fuel →
    value? fuel levels (v.chars ++ rest) = some (v, rest)
  | .string text, levels, fuel + 1, rest, _, ends, _ => value?_string text ends fuel levels
  | .integer i, levels, fuel + 1, rest, _, ends, _ => by
    show value? _ _ (intChars i ++ rest) = _
    rw [value?_unquoted (scalar?_intChars i).2 ends, (scalar?_intChars i).1, Option.map_some]
  | .float x, levels, fuel + 1, rest, _, ends, _ => by
    show value? _ _ (floatFormat.write x ++ rest) = _
    rw [value?_unquoted (scalar?_float x).2 ends, (scalar?_float x).1, Option.map_some]
  | .bool b, levels, fuel + 1, rest, _, ends, _ => value?_bool b ends fuel levels
  | .array [], levels, fuel + 2, rest, fits, ends, enough =>
    value?_list fits.1 (items?_closed (pastGap?_solid (by decide) rest))
  | .array [item], levels, fuel + 2, rest, fits, ends, enough => by
    have text : (Value.array [item]).chars ++ rest = '[' :: (item.chars ++ ']' :: rest) := by
      simp [Value.chars, itemChars, listChars]
    rw [text, List.length_cons] at enough
    have read := @value?_chars item (levels - 1) fuel (']' :: rest) fits.2.1 (.bracket rest)
      (by omega)
    have begins := (Value.begins fits.2.1).append (']' :: rest)
    rw [text]
    exact value?_list fits.1
      (items?_last begins.gap begins read (pastGap?_solid (by decide) rest))
  | .array (item :: second :: others), levels, fuel + 1, rest, fits, ends, enough => by
    have text : (Value.array (item :: second :: others)).chars ++ rest =
        '[' :: '\n' :: (rowsOf (item :: second :: others) ++ ']' :: rest) := by
      simp [Value.chars, itemChars, listChars, rowsOf]
    rw [text, List.length_cons, List.length_cons] at enough
    rw [text]
    exact value?_list fits.1
      (@items?_rows (item :: second :: others) (levels - 1) fuel rest fits.2 (by omega))
  | .table [], levels, fuel + 2, rest, fits, ends, enough =>
    value?_inlineTable fits.1 (entries?_closed (pastGap?_solid (by decide) rest))
  | .table ((key, v) :: others), levels, fuel + 1, rest, fits, ends, enough => by
    have text : (Value.table ((key, v) :: others)).chars ++ rest =
        '\x7b' :: ' ' :: (rowOf ((key, v) :: others) ++ ' ' :: '\x7d' :: rest) := by
      simp [Value.chars, entryChars, inlineTableChars, rowOf]
    rw [text, List.length_cons, List.length_cons] at enough
    rw [text]
    exact value?_inlineTable fits.1
      (@entries?_row ((key, v) :: others) (levels - 1) fuel [] rest (List.cons_ne_nil _ _)
        fits.2.1 fits.2.2 (by omega))

/-- The lines of a list are read as its items. -/
theorem items?_rows : (items : List Value) → {levels fuel : Nat} → {rest : List Char} →
    ItemsFit levels items → 2 * (rowsOf items ++ ']' :: rest).length + 2 < fuel →
    items? fuel levels ('\n' :: (rowsOf items ++ ']' :: rest)) = some (items, rest)
  | [], levels, fuel + 1, rest, fits, enough =>
    items?_closed (pastGap?_break (by decide) rest)
  | item :: others, levels, fuel + 1, rest, fits, enough => by
    rw [rowsOf_cons, List.length_append] at enough
    have read := @value?_chars item levels fuel (',' :: '\n' :: (rowsOf others ++ ']' :: rest))
      fits.1 (.comma _) (by omega)
    have shorter : (item.chars ++ ',' :: '\n' :: (rowsOf others ++ ']' :: rest)).length =
        item.chars.length + ((rowsOf others ++ ']' :: rest).length + 2) := by
      rw [List.length_append, List.length_cons, List.length_cons]
    have more := @items?_rows others levels fuel rest fits.2 (by omega)
    have begins := (Value.begins fits.1).append (',' :: '\n' :: (rowsOf others ++ ']' :: rest))
    rw [rowsOf_cons]
    exact items?_next begins.gap_columns begins read (pastGap?_solid (by decide) _) more

/-- The entries of a table are read one after the other. -/
theorem entries?_row : (entries : Entries) → {levels fuel : Nat} → {known : DraftEntries} →
    {rest : List Char} → entries ≠ [] → (keysOf known ++ keysOf entries).Nodup →
    EntriesFit levels entries →
    2 * (rowOf entries ++ ' ' :: '\x7d' :: rest).length + 2 < fuel →
    entries? fuel levels known (' ' :: (rowOf entries ++ ' ' :: '\x7d' :: rest)) =
      some (known ++ draftsOf entries, rest)
  | [(key, v)], levels, fuel + 1, known, rest, _, distinct, fits, enough => by
    rw [rowOf_singleton] at enough ⊢
    simp only [List.length_append] at enough
    have read := @value?_chars v levels fuel (' ' :: '\x7d' :: rest) fits.1 (.brace rest)
      (by rw [List.length_append]; omega)
    have begins := (Value.begins fits.1).append (' ' :: '\x7d' :: rest)
    have starts := (begins_keyChars key).append
      ([' ', '=', ' '] ++ (v.chars ++ ' ' :: '\x7d' :: rest))
    have absent := (List.nodup_append.mp distinct).2.2
    exact entries?_last starts.gap_blank starts (inlineKey?_keyChars key begins) read
      (addInline_absent (fun held => absent key held key (by simp) rfl) v)
      (pastGap?_blank (by decide) rest)
  | (key, v) :: second :: others, levels, fuel + 1, known, rest, _, distinct, fits, enough => by
    rw [rowOf_cons] at enough ⊢
    simp only [List.length_append, List.length_cons] at enough
    have read := @value?_chars v levels fuel
      (',' :: ' ' :: (rowOf (second :: others) ++ ' ' :: '\x7d' :: rest)) fits.1 (.comma _)
      (by simp only [List.length_append, List.length_cons]; omega)
    have begins := (Value.begins fits.1).append
      (',' :: ' ' :: (rowOf (second :: others) ++ ' ' :: '\x7d' :: rest))
    have starts := (begins_keyChars key).append ([' ', '=', ' '] ++
      (v.chars ++ ',' :: ' ' :: (rowOf (second :: others) ++ ' ' :: '\x7d' :: rest)))
    have absent := (List.nodup_append.mp distinct).2.2
    have moved : (keysOf (known ++ [(key, Draft.value v)]) ++ keysOf (second :: others)).Nodup := by
      simpa [keysOf] using distinct
    have more := @entries?_row (second :: others) levels fuel (known ++ [(key, .value v)]) rest
      (List.cons_ne_nil _ _) moved fits.2
      (by simp only [List.length_append, List.length_cons]; omega)
    rw [entries?_next starts.gap_blank starts (inlineKey?_keyChars key begins) read
      (addInline_absent (fun held => absent key held key (by simp) rfl) v)
      (pastGap?_solid (by decide) _), more, List.append_assoc]
    rfl

end

/-- A value is read back from what it is written as, wherever a value may end. -/
theorem readValue?_chars {v : Value} (fits : v.Fits greatestDepth) {rest : List Char}
    (ends : ValueEnd rest) : readValue? (v.chars ++ rest) = some (v, rest) :=
  value?_chars v fits ends (by omega)

end BlockForge.Toml
