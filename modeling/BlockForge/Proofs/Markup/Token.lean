/-
# Tokens of a template

A template is text with comments, directives and tags of elements in it. It is cut into tokens by a
machine that goes from character to character. The machine is strict: it stops at everything that
could be taken in two ways. A brace opens a comment or a directive and nothing else, and it does so
inside of a tag as little as a tag stands inside of a directive. An attribute has a value in quotes,
and a quote that is opened is closed before the tag ends.

A comment ends at the first place where it can. What is read of two texts one after the other is
read of the texts put together.
-/

import BlockForge.Proofs.Text.Split
import BlockForge.Text.Words
import Mathlib.Data.List.Basic

namespace BlockForge.Markup

inductive Token where
  | text (c : Char)
  | comment (text : List Char)
  | directive (text : List Char)
  | opening (name : List Char) (attributes : List (List Char × List Char))
  | closing (name : List Char)
  deriving DecidableEq

/-- What has been read of a token. -/
inductive Mode where
  | outside
  | brace
  | comment (text : List Char)
  /-- The start of a comment and a star. -/
  | star (text : List Char)
  | directive (text : List Char)
  | bracket
  | closing (name : List Char)
  | opening (name : List Char)
  | naming (name : List Char) (attributes : List (List Char × List Char)) (key : List Char)
  | equals (name : List Char) (attributes : List (List Char × List Char)) (key : List Char)
  /-- A tag with an attribute up to somewhere in its value. -/
  | value (name : List Char) (attributes : List (List Char × List Char)) (key text : List Char)
  | behind (name : List Char) (attributes : List (List Char × List Char))
  deriving DecidableEq

/-- Whether a character can stand in the value of an attribute. -/
def isValueChar (c : Char) : Bool :=
  c != '"' && c != '\x7b' && c != '\x7d' && c != '<' && c != '>' && c != '\n'

/-- Goes on by one character: a token, if the character ends one, and what has been read since. -/
def Mode.step : Mode → Char → Option (Option Token × Mode)
  | outside, c =>
    if c = '\x7b' then some (none, brace)
    else if c = '<' then some (none, bracket)
    else if c = '\x7d' || c = '>' then none
    else some (some (.text c), outside)
  | brace, c =>
    if c = '*' then some (none, comment [])
    else if c = '\x7b' || c = '\x7d' || c = '"' || c = '\'' || Text.isBlank c then none
    else some (none, directive [c])
  | comment text, c => some (none, if c = '*' then star text else comment (text ++ [c]))
  | star text, c =>
    if c = '\x7d' then some (some (.comment text), outside)
    else if c = '*' then some (none, star (text ++ ['*']))
    else some (none, comment (text ++ ['*', c]))
  | directive text, c =>
    if c = '\x7d' then some (some (.directive text), outside)
    else if c = '\x7b' || c = '"' || c = '\'' then none
    else some (none, directive (text ++ [c]))
  | bracket, c =>
    if c = '/' then some (none, closing [])
    else if c.isAlpha then some (none, opening [c])
    else none
  | closing name, c =>
    if c = '>' && !name.isEmpty then some (some (.closing name), outside)
    else if c.isAlphanum then some (none, closing (name ++ [c]))
    else none
  | opening name, c =>
    if c = '>' then some (some (.opening name []), outside)
    else if c = ' ' then some (none, naming name [] [])
    else if c.isAlphanum then some (none, opening (name ++ [c]))
    else none
  | naming name attributes key, c =>
    if c = '=' && !key.isEmpty then some (none, equals name attributes key)
    else if c.isAlpha || c = '-' then some (none, naming name attributes (key ++ [c]))
    else none
  | equals name attributes key, c =>
    if c = '"' then some (none, value name attributes key []) else none
  | value name attributes key text, c =>
    if c = '"' then some (none, behind name (attributes ++ [(key, text)]))
    else if isValueChar c then some (none, value name attributes key (text ++ [c]))
    else none
  | behind name attributes, c =>
    if c = '>' then some (some (.opening name attributes), outside)
    else if c = ' ' then some (none, naming name attributes [])
    else none

/-- The tokens of a text, and what has been read of a token at its end. -/
def scan (mode : Mode) : List Char → Option (List Token × Mode)
  | [] => some ([], mode)
  | c :: rest =>
    match mode.step c with
    | some (token, next) =>
      (scan next rest).map fun (others, last) => (token.toList ++ others, last)
    | none => none

def tokens? (text : List Char) : Option (List Token) :=
  match scan .outside text with
  | some (tokens, .outside) => some tokens
  | _ => none

variable {mode next last : Mode} {front back text : List Char} {tokens others : List Token}

theorem scan_append (first : scan mode front = some (tokens, next))
    (second : scan next back = some (others, last)) :
    scan mode (front ++ back) = some (tokens ++ others, last) := by
  induction front generalizing mode tokens with
  | nil =>
      cases first
      exact second
  | cons c rest ih =>
      rw [scan] at first
      split at first
      · rename_i token following stepped
        obtain ⟨⟨later, reached⟩, scanned, same⟩ := Option.map_eq_some_iff.mp first
        cases same
        rw [List.cons_append, scan, stepped]
        dsimp only
        rw [ih scanned, Option.map_some, List.append_assoc]
      · cases first

/-- A step that ends no token. -/
theorem scan_cons {c : Char} (stepped : mode.step c = some (none, next))
    (scanned : scan next text = some (tokens, last)) :
    scan mode (c :: text) = some (tokens, last) := by
  rw [scan, stepped]
  dsimp only
  rw [scanned]
  rfl

/-! ## Parts of tokens -/

/-- Characters that a mode gathers one after the other. -/
theorem scan_gather (gathered : List Char → Mode) (kind : Char → Bool)
    (gathers : ∀ before c, kind c →
      (gathered before).step c = some (none, gathered (before ++ [c])))
    (all : ∀ c ∈ text, kind c) (before : List Char) :
    scan (gathered before) text = some ([], gathered (before ++ text)) := by
  induction text generalizing before with
  | nil => rw [scan, List.append_nil]
  | cons c rest ih =>
      obtain ⟨first, others⟩ := List.forall_mem_cons.mp all
      apply scan_cons (gathers before c first)
      rw [ih others, List.append_assoc, List.singleton_append]

theorem scan_value (name : List Char) (attributes : List (List Char × List Char))
    (key : List Char) (plain : ∀ c ∈ text, isValueChar c) (before : List Char) :
    scan (.value name attributes key before) text =
      some ([], .value name attributes key (before ++ text)) := by
  refine scan_gather (Mode.value name attributes key) isValueChar ?_ plain before
  intro before c good
  have other : c ≠ '"' := by
    rintro rfl
    cases good
  rw [Mode.step, if_neg other, if_pos good]

theorem scan_comment (plain : ∀ c ∈ text, c ≠ '*') (before : List Char) :
    scan (.comment before) text = some ([], .comment (before ++ text)) := by
  refine scan_gather Mode.comment (· != '*') ?_ (fun c held => bne_iff_ne.mpr (plain c held)) before
  intro before c other
  rw [Mode.step, if_neg (bne_iff_ne.mp other)]

/-- A letter and then letters and digits. -/
def isElementName (name : List Char) : Bool :=
  name.head?.any Char.isAlpha && name.all Char.isAlphanum

def openingTag (name cssClass : List Char) : List Char :=
  '<' :: (name ++ (" class=\"".toList ++ (cssClass ++ "\">".toList)))

def closingTag (name : List Char) : List Char := '<' :: '/' :: (name ++ ['>'])

theorem scan_openingTag {name cssClass : List Char} (named : isElementName name)
    (plain : ∀ c ∈ cssClass, isValueChar c) :
    scan .outside (openingTag name cssClass) =
      some ([.opening name [("class".toList, cssClass)]], .outside) := by
  rw [isElementName, Bool.and_eq_true, List.all_eq_true] at named
  obtain ⟨starts, letters⟩ := named
  obtain ⟨first, rest, rfl⟩ : ∃ first rest, name = first :: rest := by
    cases name with
    | nil => cases starts
    | cons first rest => exact ⟨first, rest, rfl⟩
  have other : first ≠ '/' := by
    rintro rfl
    cases starts
  have whole : scan (.opening [first]) rest = some ([], .opening (first :: rest)) := by
    refine scan_gather Mode.opening Char.isAlphanum ?_
      (List.forall_mem_cons.mp letters).2 [first]
    intro before c letter
    rw [Mode.step, if_neg (Text.ne_of_kind letter rfl), if_neg (Text.ne_of_kind letter rfl),
      if_pos letter]
  have opened : Mode.outside.step '<' = some (none, .bracket) := rfl
  have started : Mode.bracket.step first = some (none, .opening [first]) := by
    rw [Mode.step, if_neg other, if_pos (by simpa using starts)]
  have key : scan (.opening (first :: rest)) " class=\"".toList =
      some ([], .value (first :: rest) [] "class".toList []) := rfl
  have value := scan_value (first :: rest) [] "class".toList plain []
  have ends : scan (.value (first :: rest) [] "class".toList ([] ++ cssClass)) "\">".toList =
      some ([.opening (first :: rest) [("class".toList, cssClass)]], .outside) := rfl
  exact scan_cons opened (scan_cons started
    (scan_append whole (scan_append key (scan_append value ends))))

theorem scan_closingTag {name : List Char} (named : isElementName name) :
    scan .outside (closingTag name) = some ([.closing name], .outside) := by
  rw [isElementName, Bool.and_eq_true, List.all_eq_true] at named
  have whole : scan (.closing []) name = some ([], .closing name) := by
    refine scan_gather Mode.closing Char.isAlphanum ?_ named.2 []
    intro before c letter
    rw [Mode.step, if_neg (by simp [(Text.ne_of_kind letter rfl : c ≠ '>')]), if_pos letter]
  have ends : scan (.closing name) ['>'] = some ([.closing name], .outside) := by
    cases name with
    | nil => cases named.1
    | cons first rest => rfl
  have opened : Mode.outside.step '<' = some (none, .bracket) := rfl
  have slashed : Mode.bracket.step '/' = some (none, .closing []) := rfl
  exact scan_cons opened (scan_cons slashed (scan_append whole ends))

/-! ## Blank text -/

/-- Blank text is one token for each character. -/
theorem scan_blanks (blank : ∀ c ∈ text, c = ' ' ∨ c = '\n') :
    scan .outside text = some (text.map .text, .outside) := by
  induction text with
  | nil => rfl
  | cons c rest ih =>
      obtain ⟨first, others⟩ := List.forall_mem_cons.mp blank
      have stepped : Mode.outside.step c = some (some (.text c), .outside) := by
        rcases first with rfl | rfl <;> rfl
      rw [scan, stepped]
      dsimp only
      rw [ih others]
      rfl

end BlockForge.Markup
