/-
# Parts of a template

Directives nest: what stands between the directive that opens a condition or a loop and the one
that closes it is its body. The parts of a template are read from its tokens with a stack of what is
open. A directive that closes something has to close what was opened last, and at the end nothing is
open. Elements are left as they come, since a condition may hold the tag that opens an element and
not the one that closes it. Blank text between the parts does not matter.
-/

import BlockForge.Proofs.Markup.Token

namespace BlockForge.Markup

inductive Kind where
  | condition
  | loop
  deriving DecidableEq

def Kind.word : Kind → List Char
  | condition => "if".toList
  | loop => "foreach".toList

inductive Command where
  | opens (kind : Kind) (header : List Char)
  | closes (kind : Kind)
  | plain
  deriving DecidableEq

/-- What a directive that opens or closes one kind of body does. -/
def Kind.command? (kind : Kind) (text : List Char) : Option Command :=
  if text = '/' :: kind.word then some (.closes kind)
  else ((kind.word ++ [' ']).isPrefixOf? text).map (.opens kind)

def command? (text : List Char) : Option Command :=
  if text.head? = some '$' then some .plain
  else Kind.condition.command? text <|> Kind.loop.command? text

inductive Part where
  | text (c : Char)
  | comment (text : List Char)
  | plain (text : List Char)
  | opening (name : List Char) (attributes : List (List Char × List Char))
  | closing (name : List Char)
  | enclosed (kind : Kind) (header : List Char) (body : List Part)

/-- A directive whose body is being read. -/
structure Frame where
  kind : Kind
  header : List Char
  before : List Part

/-- What is open, and the parts read in it, after a directive. -/
def Command.apply (command : Command) (text : List Char) (frames : List Frame)
    (parts : List Part) : Option (List Frame × List Part) :=
  match command, frames with
  | .plain, frames => some (frames, parts ++ [.plain text])
  | .opens kind header, frames => some (⟨kind, header, parts⟩ :: frames, [])
  | .closes kind, frame :: outer =>
    if frame.kind = kind then
      some (outer, frame.before ++ [.enclosed kind frame.header parts])
    else none
  | .closes _, [] => none

/-- Reads parts behind those that have been read, with the directives that are open, the innermost
first. -/
def nest (frames : List Frame) (parts : List Part) : List Token → Option (List Part)
  | [] => if frames.isEmpty then some parts else none
  | .text c :: rest => nest frames (if Text.isBlank c then parts else parts ++ [.text c]) rest
  | .comment text :: rest => nest frames (parts ++ [.comment text]) rest
  | .opening name attributes :: rest => nest frames (parts ++ [.opening name attributes]) rest
  | .closing name :: rest => nest frames (parts ++ [.closing name]) rest
  | .directive text :: rest =>
    match command? text with
    | none => none
    | some command =>
      match command.apply text frames parts with
      | none => none
      | some (opened, read) => nest opened read rest

/-- The parts of a template. -/
def parts? (text : List Char) : Option (List Part) := (tokens? text).bind (nest [] [])

mutual

/-- A part without the values of its classes. -/
def Part.outline : Part → Part
  | .opening name attributes => .opening name (attributes.map fun (key, value) =>
      (key, if key = "class".toList then [] else value))
  | .enclosed kind header body => .enclosed kind header (outlineOf body)
  | part => part

def outlineOf : List Part → List Part
  | [] => []
  | part :: rest => part.outline :: outlineOf rest

end

mutual

def Part.hasLoop : Part → Bool
  | .enclosed .loop _ _ => true
  | .enclosed .condition _ body => haveLoop body
  | _ => false

def haveLoop : List Part → Bool
  | [] => false
  | part :: rest => part.hasLoop || haveLoop rest

end

/-! ## Texts that are read wherever they stand -/

/-- Tokens that are read as some parts, whatever is open and whatever comes next. -/
def Nests (tokens : List Token) (parts : List Part) : Prop :=
  ∀ frames before rest, nest frames before (tokens ++ rest) = nest frames (before ++ parts) rest

/-- A text that is read as some parts wherever it stands between two tokens. -/
def Reads (text : List Char) (parts : List Part) : Prop :=
  ∃ tokens, scan .outside text = some (tokens, .outside) ∧ Nests tokens parts

variable {front back text : List Char} {parts others : List Part}

theorem parts?_of_reads (reads : Reads text parts) : parts? text = some parts := by
  obtain ⟨tokens, scanned, nests⟩ := reads
  have whole := nests [] [] []
  rw [List.append_nil, List.nil_append] at whole
  rw [parts?, tokens?, scanned]
  exact whole

theorem reads_nil : Reads [] [] :=
  ⟨[], rfl, fun _ before _ => by rw [List.append_nil, List.nil_append]⟩

theorem Reads.append (first : Reads front parts) (second : Reads back others) :
    Reads (front ++ back) (parts ++ others) := by
  obtain ⟨tokens, scanned, nests⟩ := first
  obtain ⟨later, scannedToo, nestsToo⟩ := second
  refine ⟨tokens ++ later, scan_append scanned scannedToo, fun frames before rest => ?_⟩
  rw [List.append_assoc, nests, nestsToo, List.append_assoc]

/-- Blank text is read as nothing. -/
theorem reads_blanks (blank : ∀ c ∈ text, c = ' ' ∨ c = '\n') : Reads text [] := by
  refine ⟨text.map .text, scan_blanks blank, fun frames before rest => ?_⟩
  rw [List.append_nil]
  induction text with
  | nil => rfl
  | cons c others ih =>
      obtain ⟨first, later⟩ := List.forall_mem_cons.mp blank
      have isBlank : Text.isBlank c := by
        rcases first with rfl | rfl <;> rfl
      rw [List.map_cons, List.cons_append, nest, if_pos isBlank, ih later]

/-- A token that is a part of its own. -/
theorem reads_token {token : Token} {part : Part}
    (scanned : scan .outside text = some ([token], .outside))
    (alone : ∀ frames before rest,
      nest frames before (token :: rest) = nest frames (before ++ [part]) rest) :
    Reads text [part] :=
  ⟨[token], scanned, alone⟩

theorem reads_comment {inner : List Char}
    (scanned : scan .outside text = some ([.comment inner], .outside)) :
    Reads text [.comment inner] :=
  reads_token scanned fun _ _ _ => by rw [nest]

theorem reads_plain {inner : List Char}
    (scanned : scan .outside text = some ([.directive inner], .outside))
    (plain : command? inner = some .plain) : Reads text [.plain inner] :=
  reads_token scanned fun _ _ _ => by
    rw [nest, plain]
    rfl

theorem reads_openingTag {name cssClass : List Char} (named : isElementName name)
    (plain : ∀ c ∈ cssClass, isValueChar c) :
    Reads (openingTag name cssClass) [.opening name [("class".toList, cssClass)]] :=
  reads_token (scan_openingTag named plain) fun _ _ _ => by rw [nest]

theorem reads_closingTag {name : List Char} (named : isElementName name) :
    Reads (closingTag name) [.closing name] :=
  reads_token (scan_closingTag named) fun _ _ _ => by rw [nest]

/-- Two directives, of which the one opens a body and the other one closes it, enclose whatever is
read between them. -/
theorem reads_enclosed {kind : Kind} {header opener closer opens closes : List Char}
    (scannedOpener : scan .outside opener = some ([.directive opens], .outside))
    (opening : command? opens = some (.opens kind header))
    (scannedCloser : scan .outside closer = some ([.directive closes], .outside))
    (closing : command? closes = some (.closes kind)) (body : Reads text parts) :
    Reads (opener ++ (text ++ closer)) [.enclosed kind header parts] := by
  obtain ⟨tokens, scanned, nests⟩ := body
  refine ⟨_, scan_append scannedOpener (scan_append scanned scannedCloser),
    fun frames before rest => ?_⟩
  rw [List.append_assoc, List.append_assoc, List.singleton_append, nest, opening]
  dsimp only [Command.apply]
  rw [nests, List.singleton_append, nest, closing]
  dsimp only [Command.apply]
  rw [if_pos rfl]
  rfl

end BlockForge.Markup
