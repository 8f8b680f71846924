/-
# Reading array literals

A reader of PHP's array literals, one token at a time. What it carries is the arrays that
are open, the innermost first, and what is due next: an operand, or whatever may follow a
value. Inside an array a value is followed by a point and another operand, by an arrow if
it is a key, by a comma, or by the bracket that closes the array; a comma may stand before
that bracket. Everything else is refused, so the reader accepts no more than PHP does.

A value is read up to the first token that cannot go on with it, and the tokens behind it
are left. Reading respects layout: the value of a moved source text is the value of the
source text, moved.
-/

import BlockForge.Proofs.Code.Numeral
import BlockForge.Proofs.Code.Term

namespace BlockForge.Code

open BlockForge.Text

/-- An array whose closing bracket has not been read. -/
structure OpenArray where
  entries : TermEntries
  key : Option (List Char)

/-- What is due next. -/
inductive Standing where
  | before (left : Option Term)
  | negative
  | called (left : Option Term)
  | opened (left : Option Term)
  | given (left : Option Term) (text : List Char)
  | after (value : Term)

/-- The variable whose value is the name of the module. -/
def moduleVariable : List Char := "$this->module->name".toList

/-- The method that gives a text in the language of the user. -/
def localizer : List Char := "$this->module->l".toList

def arrow : List Char := ['=', '>']

/-- An operand that is run together with the value to its left. -/
def joinTo (left : Option Term) (operand : Term) : Term :=
  match left with
  | some value => .joined value operand
  | none => operand

namespace OpenArray

/-- An array of which only the opening bracket has been read. -/
def fresh : OpenArray := ⟨[], none⟩

def add (top : OpenArray) (value : Term) : OpenArray :=
  ⟨(top.key, value) :: top.entries, none⟩

def close (top : OpenArray) : Term := .array top.entries.reverse

end OpenArray

/-- One token of an operand that does not stand to the right of a point. -/
def openValue (outer : List OpenArray) (token : List Char) :
    Option (List OpenArray × Standing) :=
  if token = ['['] then some (.fresh :: outer, .before none)
  else if token = ['-'] then some (outer, .negative)
  else if isScalar token then some (outer, .after (.scalar token))
  else
    match outer with
    | top :: outer =>
      if token = [']'] ∧ top.key = none then some (outer, .after top.close) else none
    | [] => none

/-- One token behind a value. -/
def closeValue (outer : List OpenArray) (value : Term) (token : List Char) :
    Option (List OpenArray × Standing) :=
  if token = ['.'] then some (outer, .before (some value))
  else
    match outer with
    | [] => none
    | top :: outer =>
      if token = [','] then some (top.add value :: outer, .before none)
      else if token = [']'] then some (outer, .after (top.add value).close)
      else
        match value, top.key with
        | .text key, none =>
          if token = arrow then some (⟨top.entries, some key⟩ :: outer, .before none) else none
        | _, _ => none

/-- What one token does; nothing if it cannot stand there. -/
def advance (outer : List OpenArray) : Standing → Token → Option (List OpenArray × Standing)
  | .before left, .literal text => some (outer, .after (joinTo left (.text text)))
  | .before left, .plain token =>
    if token = moduleVariable then some (outer, .after (joinTo left .moduleName))
    else if token = localizer then some (outer, .called left)
    else if left.isNone then openValue outer token
    else none
  | .negative, .plain token =>
    if isScalar token then some (outer, .after (.scalar ('-' :: token))) else none
  | .called left, .plain token => if token = ['('] then some (outer, .opened left) else none
  | .opened left, .literal text => some (outer, .given left text)
  | .given left text, .plain token =>
    if token = [')'] then some (outer, .after (joinTo left (.localized text))) else none
  | .after value, .plain token => closeValue outer value token
  | _, _ => none

/-- The value that has been read if the reader stops here. -/
def stopped (outer : List OpenArray) (standing : Standing) (rest : List Token) :
    Option (Term × List Token) :=
  match outer, standing with
  | [], .after value => some (value, rest)
  | _, _ => none

def readFrom (outer : List OpenArray) (standing : Standing) :
    List Token → Option (Term × List Token)
  | [] => stopped outer standing []
  | token :: rest =>
    match advance outer standing token with
    | some (outer, standing) => readFrom outer standing rest
    | none => stopped outer standing (token :: rest)

def readValue (tokens : List Token) : Option (Term × List Token) :=
  readFrom [] (.before none) tokens

/-- The value of a source text that is one value and nothing else. -/
def readSource (source : List Char) : Option Term :=
  match (tokens? source).bind readValue with
  | some (value, []) => some value
  | _ => none

theorem readFrom_of_advance {outer next : List OpenArray} {standing reached : Standing}
    {token : Token} (step : advance outer standing token = some (next, reached))
    (rest : List Token) :
    readFrom outer standing (token :: rest) = readFrom next reached rest := by
  rw [readFrom, step]

theorem readSource_eq_some_iff {source : List Char} {value : Term} :
    readSource source = some value ↔
      ∃ tokens, tokens? source = some tokens ∧ readValue tokens = some (value, []) := by
  rw [readSource]
  constructor
  · intro read
    split at read
    · rename_i found whole
      cases read
      exact Option.bind_eq_some_iff.mp whole
    · cases read
  · rintro ⟨tokens, scanned, read⟩
    rw [scanned, Option.bind_some, read]

/-! ## Values inside of other values -/

theorem stopped_eq_some_iff {outer : List OpenArray} {standing : Standing} {rest left : List Token}
    {value : Term} : stopped outer standing rest = some (value, left) ↔
      outer = [] ∧ standing = .after value ∧ rest = left := by
  cases outer with
  | nil => cases standing <;> simp [stopped]
  | cons top outer => simp [stopped]

theorem openValue_append {inner next : List OpenArray} {token : List Char} {reached : Standing}
    (step : openValue inner token = some (next, reached)) (outer : List OpenArray) :
    openValue (inner ++ outer) token = some (next ++ outer, reached) := by
  unfold openValue at step ⊢
  cases inner with
  | nil => grind
  | cons top inner => grind

theorem closeValue_append {inner next : List OpenArray} {value : Term} {token : List Char}
    {reached : Standing} (step : closeValue inner value token = some (next, reached))
    (outer : List OpenArray) :
    closeValue (inner ++ outer) value token = some (next ++ outer, reached) := by
  unfold closeValue at step ⊢
  cases inner with
  | nil => grind
  | cons top inner => grind

/-- A step among the inner arrays does not see the outer ones. -/
theorem advance_append {inner next : List OpenArray} {standing reached : Standing}
    {token : Token} (step : advance inner standing token = some (next, reached))
    (outer : List OpenArray) :
    advance (inner ++ outer) standing token = some (next ++ outer, reached) := by
  cases standing with
  | before left =>
      cases token with
      | literal text =>
          cases step
          rfl
      | plain token =>
          rw [advance] at step ⊢
          grind [openValue_append]
  | after value =>
      cases token with
      | literal text => cases step
      | plain token => exact closeValue_append step outer
  | negative => cases token <;> grind [advance]
  | called left => cases token <;> grind [advance]
  | opened left => cases token <;> grind [advance]
  | given left text => cases token <;> grind [advance]

/-- A value is read the same way wherever it stands. -/
theorem readFrom_append {inner : List OpenArray} {standing : Standing} {tokens : List Token}
    {value : Term} (read : readFrom inner standing tokens = some (value, []))
    (outer : List OpenArray) (rest : List Token) :
    readFrom (inner ++ outer) standing (tokens ++ rest) = readFrom outer (.after value) rest := by
  induction tokens generalizing inner standing with
  | nil =>
      obtain ⟨rfl, rfl, -⟩ := stopped_eq_some_iff.mp read
      rfl
  | cons token tokens ih =>
      rw [readFrom] at read
      cases step : advance inner standing token with
      | none =>
          -- Nothing is left over, so the reader has not stopped before the last token.
          rw [step] at read
          exact absurd (stopped_eq_some_iff.mp read).2.2 (List.cons_ne_nil token tokens)
      | some reached =>
          rw [step] at read
          rw [List.cons_append, readFrom_of_advance (advance_append step outer)]
          exact ih read

/-! ## Values of moved source text -/

def OpenArray.displace (columns : Nat) (top : OpenArray) : OpenArray :=
  ⟨mapEntryTexts (Code.displace columns) top.entries, top.key.map (Code.displace columns)⟩

def Standing.displace (columns : Nat) : Standing → Standing
  | .before left => .before (left.map (·.displace columns))
  | .negative => .negative
  | .called left => .called (left.map (·.displace columns))
  | .opened left => .opened (left.map (·.displace columns))
  | .given left text => .given (left.map (·.displace columns)) (Code.displace columns text)
  | .after value => .after (value.displace columns)

def displaceState (columns : Nat) (state : List OpenArray × Standing) :
    List OpenArray × Standing :=
  (state.1.map (·.displace columns), state.2.displace columns)

theorem joinTo_displace (columns : Nat) (left : Option Term) (operand : Term) :
    joinTo (left.map (·.displace columns)) (operand.displace columns) =
      (joinTo left operand).displace columns := by
  cases left with
  | none => rfl
  | some value => rfl

theorem OpenArray.add_displace (columns : Nat) (top : OpenArray) (value : Term) :
    (top.displace columns).add (value.displace columns) = (top.add value).displace columns := rfl

theorem OpenArray.close_displace (columns : Nat) (top : OpenArray) :
    (top.displace columns).close = top.close.displace columns := by
  rw [close, close, Term.displace, Term.mapTexts, displace, mapEntryTexts_eq_map,
    mapEntryTexts_eq_map, List.map_reverse]

theorem openValue_displace (columns : Nat) (outer : List OpenArray) (token : List Char) :
    openValue (outer.map (·.displace columns)) token =
      (openValue outer token).map (displaceState columns) := by
  unfold openValue
  split
  · rfl
  · split
    · rfl
    · split
      · rfl
      · cases outer with
        | nil => rfl
        | cons top outer =>
            have sameKey : (top.displace columns).key = none ↔ top.key = none := by
              rw [OpenArray.displace, Option.map_eq_none_iff]
            simp only [List.map_cons, sameKey, OpenArray.close_displace]
            split <;> rfl

theorem closeValue_displace (columns : Nat) (outer : List OpenArray) (value : Term)
    (token : List Char) :
    closeValue (outer.map (·.displace columns)) (value.displace columns) token =
      (closeValue outer value token).map (displaceState columns) := by
  unfold closeValue
  split
  · rfl
  · cases outer with
    | nil => rfl
    | cons top outer =>
        simp only [List.map_cons, OpenArray.add_displace, OpenArray.close_displace]
        split
        · rfl
        · split
          · rfl
          · obtain ⟨entries, key⟩ := top
            cases value with
            | text text =>
                cases key with
                | none =>
                    dsimp only [Term.displace, Term.mapTexts, OpenArray.displace, Option.map_none]
                    split <;> rfl
                | some key => rfl
            | _ => rfl

/-- A step on moved text is the step on the text, moved. -/
theorem advance_displace (columns : Nat) (outer : List OpenArray) (standing : Standing)
    (token : Token) :
    advance (outer.map (·.displace columns)) (standing.displace columns) (token.displace columns) =
      (advance outer standing token).map (displaceState columns) := by
  have reads (left : Option Term) (operand : Term) :
      some (outer.map (·.displace columns),
          Standing.after (joinTo (left.map (·.displace columns)) (operand.displace columns))) =
        (some (outer, Standing.after (joinTo left operand))).map (displaceState columns) := by
    rw [joinTo_displace]
    rfl
  cases standing with
  | before left =>
      cases token with
      | literal text => exact reads left (.text text)
      | plain token =>
          simp only [Standing.displace, Token.displace, advance, Option.isNone_map]
          split
          · exact reads left .moduleName
          · split
            · rfl
            · split
              · exact openValue_displace columns outer token
              · rfl
  | after value =>
      cases token with
      | literal text => rfl
      | plain token => exact closeValue_displace columns outer value token
  | negative =>
      cases token with
      | literal text => rfl
      | plain token =>
          simp only [Standing.displace, Token.displace, advance]
          split <;> rfl
  | called left =>
      cases token with
      | literal text => rfl
      | plain token =>
          simp only [Standing.displace, Token.displace, advance]
          split <;> rfl
  | opened left =>
      cases token with
      | literal text => rfl
      | plain token => rfl
  | given left text =>
      cases token with
      | literal text => rfl
      | plain token =>
          simp only [Standing.displace, Token.displace, advance]
          split
          · exact reads left (.localized text)
          · rfl

/-- Reading moved text is reading the text, moved. -/
theorem readFrom_displace (columns : Nat) (outer : List OpenArray) (standing : Standing)
    (tokens : List Token) :
    readFrom (outer.map (·.displace columns)) (standing.displace columns)
        (tokens.map (·.displace columns)) =
      (readFrom outer standing tokens).map fun (value, rest) =>
        (value.displace columns, rest.map (·.displace columns)) := by
  have stops (outer : List OpenArray) (standing : Standing) (rest : List Token) :
      stopped (outer.map (·.displace columns)) (standing.displace columns)
          (rest.map (·.displace columns)) =
        (stopped outer standing rest).map fun (value, rest) =>
          (value.displace columns, rest.map (·.displace columns)) := by
    cases outer with
    | nil => cases standing <;> rfl
    | cons top outer => cases standing <;> rfl
  induction tokens generalizing outer standing with
  | nil => exact stops outer standing []
  | cons token tokens ih =>
      rw [List.map_cons, readFrom, readFrom, advance_displace]
      cases advance outer standing token with
      | none => exact stops outer standing (token :: tokens)
      | some state => exact ih state.1 state.2

theorem readValue_displace (columns : Nat) {tokens : List Token} {value : Term}
    (read : readValue tokens = some (value, [])) :
    readValue (tokens.map (·.displace columns)) = some (value.displace columns, []) := by
  have moved := readFrom_displace columns [] (.before none) tokens
  rw [← readValue, read] at moved
  exact moved

end BlockForge.Code
