/-
# Expressions read back

A document is written as expressions, a line each, and is read as the same expressions. A header
starts with a bracket and a key with another character, a path goes on where a dot follows its key,
and every expression ends with its line, so none is taken for more or less than it is.
-/

import BlockForge.Proofs.Toml.Value

namespace BlockForge.Toml

/-! ## Paths -/

theorem Begins.pastBlanks {text : List Char} (begins : Begins text) : pastBlanks text = text := by
  obtain ⟨c, rest, rfl, solid, -⟩ := begins
  exact pastBlanks_solid solid rest

theorem pathChars_singleton (key : String) : pathChars [key] = keyChars key := by
  simp [pathChars, List.intercalate]

theorem pathChars_cons (first : String) (way : List String) (key : String) :
    pathChars (first :: (way ++ [key])) = keyChars first ++ '.' :: pathChars (way ++ [key]) := by
  cases way <;> simp [pathChars, List.intercalate]

theorem exists_pathChars_eq (way : List String) (key : String) :
    ∃ c rest, pathChars (way ++ [key]) = c :: rest ∧ startsKey c = true := by
  cases way with
  | nil =>
      rw [List.nil_append, pathChars_singleton]
      exact exists_keyChars_eq key
  | cons first way =>
      obtain ⟨c, rest, chars, starts⟩ := exists_keyChars_eq first
      rw [List.cons_append, pathChars_cons, chars]
      exact ⟨c, _, rfl, starts⟩

theorem begins_pathChars (way : List String) (key : String) :
    Begins (pathChars (way ++ [key])) := by
  obtain ⟨c, rest, chars, starts⟩ := exists_pathChars_eq way key
  rw [chars]
  exact begins_of_startsKey starts rest

/-- A path is read with as many keys as it has, if no dot follows it. -/
theorem keysUpTo?_pathChars {way : List String} {limit : Nat} (few : way.length < limit)
    (key : String) {after : List Char} (ends : ∀ c ∈ after.head?, isBareChar c = false)
    (noDot : (pastBlanks after).head? ≠ some '.') :
    keysUpTo? limit (pathChars (way ++ [key]) ++ after) = some (⟨way, key⟩, pastBlanks after) := by
  induction way generalizing limit with
  | nil =>
      obtain ⟨limit, rfl⟩ := Nat.exists_eq_add_one_of_ne_zero (Nat.ne_of_gt few)
      rw [List.nil_append, pathChars_singleton, keysUpTo?, key?_keyChars key ends]
      simp only [Option.bind_eq_bind, Option.bind_some]
      split
      · rename_i dotted
        rw [dotted] at noDot
        exact absurd rfl noDot
      · rfl
  | cons first way ih =>
      obtain ⟨limit, rfl⟩ := Nat.exists_eq_add_one_of_ne_zero (Nat.ne_of_gt (Nat.zero_lt_of_lt few))
      have others := ih (Nat.lt_of_succ_lt_succ few)
      have read : key? (keyChars first ++ ('.' :: (pathChars (way ++ [key]) ++ after))) =
          some (first, '.' :: (pathChars (way ++ [key]) ++ after)) := by
        apply key?_keyChars
        rintro c ⟨⟩
        decide
      have begins := (begins_pathChars way key).append after
      rw [List.cons_append, pathChars_cons, List.append_assoc, List.cons_append, keysUpTo?, read]
      simp only [Option.bind_eq_bind, Option.bind_some]
      rw [pastBlanks_solid (by decide) (pathChars (way ++ [key]) ++ after)]
      simp only [begins.pastBlanks, others, Option.bind_some]
      rfl

/-! ## Expressions -/

/-- An expression that can be read back: a header no deeper than a reader goes, or one key with a
value that fits. -/
def Expression.Fits : Expression → Prop
  | .header path => path.way.length < greatestDepth
  | .nextHeader path => path.way.length < greatestDepth
  | .assign path v => path.way = [] ∧ v.Fits greatestDepth

/-- The path of a header is read up to its bracket. -/
theorem keyPath?_header {path : KeyPath} (few : path.way.length < greatestDepth)
    (rest : List Char) :
    keyPath? (pastBlanks (pathChars path.names ++ ']' :: rest)) = some (path, ']' :: rest) := by
  have begins := (begins_pathChars path.way path.key).append (']' :: rest)
  have past : pastBlanks (']' :: rest) = ']' :: rest := pastBlanks_solid (by decide) rest
  rw [KeyPath.names, begins.pastBlanks, keyPath?,
    keysUpTo?_pathChars few path.key (by rintro c ⟨⟩; decide) (by rw [past]; simp), past]

theorem expression?_header {path : KeyPath} (few : path.way.length < greatestDepth)
    (rest : List Char) :
    expression? ('[' :: (pathChars path.names ++ ']' :: rest)) = some (.header path, rest) := by
  have read := keyPath?_header few rest
  obtain ⟨c, more, chars, starts⟩ := exists_pathChars_eq path.way path.key
  rw [KeyPath.names, chars, List.cons_append] at read ⊢
  rw [expression?]
  · simp only [read]
    rfl
  · simp [Text.ne_of_kind starts (rfl : startsKey '[' = false)]

theorem expression?_nextHeader {path : KeyPath} (few : path.way.length < greatestDepth)
    (rest : List Char) :
    expression? ('[' :: '[' :: (pathChars path.names ++ ']' :: ']' :: rest)) =
      some (.nextHeader path, rest) := by
  have read := keyPath?_header few (']' :: rest)
  simp only [expression?, read]
  rfl

theorem expression?_assign (key : String) {v : Value} (fits : v.Fits greatestDepth)
    (rest : List Char) :
    expression? (keyChars key ++ ([' ', '=', ' '] ++ (v.chars ++ '\n' :: rest))) =
      some (.assign ⟨[], key⟩ v, '\n' :: rest) := by
  have begins := (Value.begins fits).append ('\n' :: rest)
  have value := readValue?_chars fits (.line rest)
  have sign : pastBlanks ([' ', '=', ' '] ++ (v.chars ++ '\n' :: rest)) =
      '=' :: ' ' :: (v.chars ++ '\n' :: rest) := rfl
  have read : keyPath? (keyChars key ++ ([' ', '=', ' '] ++ (v.chars ++ '\n' :: rest))) =
      some (⟨[], key⟩, '=' :: ' ' :: (v.chars ++ '\n' :: rest)) := by
    rw [keyPath?, ← pathChars_singleton]
    exact @keysUpTo?_pathChars [] _ (by decide) key _ (by rintro c ⟨⟩; decide)
      (by rw [sign]; simp)
  have past : pastBlanks (' ' :: (v.chars ++ '\n' :: rest)) = v.chars ++ '\n' :: rest :=
    begins.pastBlanks
  have starting := ((begins_keyChars key).append
    ([' ', '=', ' '] ++ (v.chars ++ '\n' :: rest))).pastBlanks
  obtain ⟨c, more, chars, starts⟩ := exists_keyChars_eq key
  rw [chars, List.cons_append] at read starting ⊢
  rw [expression?]
  · simp only [starting, read, Option.bind_eq_bind, Option.bind_some, past, value]
    rfl
  · simp [Text.ne_of_kind starts (rfl : startsKey '[' = false)]
  · simp [Text.ne_of_kind starts (rfl : startsKey '[' = false)]

/-- What follows on the line of an expression is its end. -/
theorem pastLine?_break (rest : List Char) : pastLine? ('\n' :: rest) = some rest := rfl

/-- An expression is read before those that follow it. -/
theorem expressions?_of_expression? {text start after rest : List Char} {e : Expression}
    (gap : pastGap? text = some start) (some_char : start ≠ [])
    (read : expression? start = some (e, after)) (line : pastLine? after = some rest) (fuel : Nat) :
    expressions? (fuel + 1) text = (expressions? fuel rest).map (e :: ·) := by
  obtain ⟨c, more, rfl⟩ := List.exists_cons_of_ne_nil some_char
  simp only [expressions?, gap, Option.bind_eq_bind, Option.bind_some, read, line]
  cases expressions? fuel rest <;> rfl

/-- The text of an expression is read as it, and the reader goes on with the next line. -/
theorem expressions?_cons {e : Expression} (fits : e.Fits) (fuel : Nat) (rest : List Char) :
    expressions? (fuel + 1) (e.chars ++ rest) = (expressions? fuel rest).map (e :: ·) := by
  cases e with
  | header path =>
      have text : (Expression.header path).chars ++ rest =
          '\n' :: '[' :: (pathChars path.names ++ ']' :: '\n' :: rest) := by
        simp [Expression.chars]
      rw [text]
      exact expressions?_of_expression? (pastGap?_break (by decide) _) (List.cons_ne_nil _ _)
        (expression?_header fits ('\n' :: rest)) (pastLine?_break rest) fuel
  | nextHeader path =>
      have text : (Expression.nextHeader path).chars ++ rest =
          '\n' :: '[' :: '[' :: (pathChars path.names ++ ']' :: ']' :: '\n' :: rest) := by
        simp [Expression.chars]
      rw [text]
      exact expressions?_of_expression? (pastGap?_break (by decide) _) (List.cons_ne_nil _ _)
        (expression?_nextHeader fits ('\n' :: rest)) (pastLine?_break rest) fuel
  | assign path v =>
      obtain ⟨way, key⟩ := path
      obtain ⟨none, fits⟩ := fits
      obtain rfl : way = [] := none
      have text : (Expression.assign ⟨[], key⟩ v).chars ++ rest =
          keyChars key ++ ([' ', '=', ' '] ++ (v.chars ++ '\n' :: rest)) := by
        simp [Expression.chars, KeyPath.names, pathChars_singleton]
      have starts := (begins_keyChars key).append ([' ', '=', ' '] ++ (v.chars ++ '\n' :: rest))
      obtain ⟨c, more, chars, -⟩ := id starts
      rw [text]
      exact expressions?_of_expression? starts.gap (by rw [chars]; exact List.cons_ne_nil _ _)
        (expression?_assign key fits rest) (pastLine?_break rest) fuel

/-- The text of expressions is read as them, if the steps suffice for their number. -/
theorem expressions?_flatMap {es : List Expression} (fits : ∀ e ∈ es, e.Fits) {fuel : Nat}
    (enough : es.length < fuel) : expressions? fuel (es.flatMap Expression.chars) = some es := by
  induction es generalizing fuel with
  | nil =>
      obtain ⟨fuel, rfl⟩ := Nat.exists_eq_add_one_of_ne_zero (Nat.ne_of_gt enough)
      rfl
  | cons e es ih =>
      obtain ⟨fuel, rfl⟩ := Nat.exists_eq_add_one_of_ne_zero (Nat.ne_of_gt (Nat.zero_lt_of_lt enough))
      rw [List.flatMap_cons, expressions?_cons (fits e List.mem_cons_self),
        ih (fun other held => fits other (List.mem_cons_of_mem e held)) (Nat.lt_of_succ_lt_succ enough),
        Option.map_some]

theorem Expression.exists_chars_eq {e : Expression} :
    ∃ c rest, e.chars = c :: rest ∧ (c = '\n' ∨ startsKey c = true) := by
  cases e with
  | header path => exact ⟨_, _, rfl, .inl rfl⟩
  | nextHeader path => exact ⟨_, _, rfl, .inl rfl⟩
  | assign path v =>
      obtain ⟨c, rest, chars, starts⟩ := exists_pathChars_eq path.way path.key
      rw [Expression.chars, KeyPath.names, chars]
      exact ⟨c, _, rfl, .inr starts⟩

/-- Every expression takes a character at least. -/
theorem length_le_flatMap (es : List Expression) :
    es.length ≤ (es.flatMap Expression.chars).length := by
  induction es with
  | nil => exact Nat.le_refl 0
  | cons e es ih =>
      obtain ⟨c, rest, chars, -⟩ := @Expression.exists_chars_eq e
      rw [List.flatMap_cons, List.length_append, chars, List.length_cons, List.length_cons]
      omega

/-- No document starts with the mark of an encoding. -/
theorem head?_flatMap_ne (es : List Expression) :
    (es.flatMap Expression.chars).head? ≠ some encodingMark := by
  cases es with
  | nil => simp
  | cons e es =>
      obtain ⟨c, rest, chars, starts⟩ := @Expression.exists_chars_eq e
      rw [List.flatMap_cons, chars, List.cons_append, List.head?_cons]
      rintro ⟨⟩
      revert starts
      decide

/-- A text of expressions is read as what they add up to. -/
theorem readDocument?_flatMap {es : List Expression} (fits : ∀ e ∈ es, e.Fits) :
    readDocument? (es.flatMap Expression.chars) =
      (addExpressions [] [] es).map finishedEntries := by
  have read : expressions? ((es.flatMap Expression.chars).length + 1)
      (es.flatMap Expression.chars) = some es :=
    expressions?_flatMap fits (Nat.lt_succ_of_le (length_le_flatMap es))
  simp only [readDocument?, if_neg (head?_flatMap_ne es), read, Option.bind_eq_bind,
    Option.bind_some]
  cases addExpressions [] [] es <;> rfl

end BlockForge.Toml
