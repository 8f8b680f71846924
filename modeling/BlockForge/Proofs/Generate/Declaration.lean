/-
# The class that a file declares

The head of a class file says in which namespace its class is, how it is called and what it
extends. It is read here as PHP reads it: comments are dropped, what is left is cut into
tokens, and names of classes are compared without regard to case. The name is always one that
a class may have, and the file is called after it.

One class cannot be declared nevertheless. Every class extends `AbstractBlock`, which is
looked for in the namespace of the class itself, so a block whose name is `Abstract`, in any
case, declares a class that extends itself. The rules of a description do not exclude it.
-/

import BlockForge.Proofs.Generate.ClassFile
import BlockForge.Proofs.Text.Pattern

namespace BlockForge.Code

/-! ## Comments -/

/-- Where a reader of source text stands with regard to comments. -/
inductive CommentState where
  | code
  /-- Behind a slash, which may begin a comment. -/
  | slash
  | line
  | inside
  /-- Behind a star inside a comment with an end of its own, which may begin that end. -/
  | star
  deriving DecidableEq

def CommentState.next : CommentState → Char → CommentState
  | .code, c => if c = '/' then .slash else if c = '#' then .line else .code
  | .slash, c => if c = '*' then .inside else if c = '/' then .line else .code
  | .line, c => if c = '\n' then .code else .line
  | .inside, c => if c = '*' then .star else .inside
  | .star, c => if c = '/' then .code else if c = '*' then .star else .inside

/-- The code that a character adds. A comment with an end of its own stands for a space. -/
def CommentState.adds : CommentState → Char → List Char
  | .code, c => if c = '/' ∨ c = '#' then [] else [c]
  | .slash, c => if c = '*' then [' '] else if c = '/' then [] else ['/', c]
  | .line, c => if c = '\n' then ['\n'] else []
  | .inside, _ => []
  | .star, _ => []

def uncommented (state : CommentState) : List Char → List Char
  | [] => []
  | c :: rest => state.adds c ++ uncommented (state.next c) rest

theorem uncommented_append (state : CommentState) (front back : List Char) :
    uncommented state (front ++ back) =
      uncommented state front ++ uncommented (front.foldl CommentState.next state) back := by
  induction front generalizing state with
  | nil => rfl
  | cons c front ih =>
      rw [List.cons_append, uncommented, uncommented, List.foldl_cons, ih, List.append_assoc]

/-- Whether a character begins no comment. -/
def beginsNoComment (c : Char) : Bool := c != '/' && c != '#'

/-- Text in which no comment begins is code as it stands. -/
theorem uncommented_plain {front : List Char} (plain : front.all beginsNoComment)
    (back : List Char) : uncommented .code (front ++ back) = front ++ uncommented .code back := by
  induction front with
  | nil => rfl
  | cons c front ih =>
      rw [List.all_cons, Bool.and_eq_true, beginsNoComment, Bool.and_eq_true, bne_iff_ne,
        bne_iff_ne] at plain
      obtain ⟨⟨noSlash, noHash⟩, others⟩ := plain
      rw [List.cons_append, uncommented, CommentState.adds, if_neg (by simp [noSlash, noHash]),
        CommentState.next, if_neg noSlash, if_neg noHash, ih others]
      rfl

theorem beginsNoComment_of_isAlphanum {c : Char} (letter : c.isAlphanum) : beginsNoComment c := by
  rw [beginsNoComment, Bool.and_eq_true, bne_iff_ne, bne_iff_ne]
  exact ⟨Text.ne_of_kind letter rfl, Text.ne_of_kind letter rfl⟩

/-! ## Declarations -/

/-- What the head of a class file says. -/
structure Declaration where
  space : List Char
  name : List Char
  parent : List Char

def Token.chars : Token → List Char
  | .literal text => text
  | .plain text => text

def openTag : List Char := "<?php\n".toList

/-- A namespace and a class that extends another one, as tokens. -/
def declarationOf? : List Token → Option Declaration
  | [] => none
  | first :: rest =>
    let space := rest.takeWhile (· != .plain [';'])
    match rest.dropWhile (· != .plain [';']) with
    | [_, kind, name, relation, parent] =>
      if first = .plain "namespace".toList ∧ kind = .plain "class".toList
          ∧ relation = .plain "extends".toList then
        some ⟨space.flatMap Token.chars, name.chars, parent.chars⟩
      else none
    | _ => none

/-- The declaration at the head of a file: what stands between the tag that opens the code and
the body of the class. -/
def declaration? (file : List Char) : Option Declaration :=
  (openTag.isPrefixOf? file).bind fun source =>
    (tokens? ((uncommented .code source).takeWhile (· != '\x7b'))).bind declarationOf?

/-- A name as it is compared with other names of classes. -/
def folded (name : List Char) : List Char := name.map Char.toLower

/-- The words that are no names of classes, in lower case. -/
def reservedWords : List (List Char) :=
  ["__halt_compiler", "abstract", "and", "array", "as", "break", "callable", "case", "catch",
    "class", "clone", "const", "continue", "declare", "default", "die", "do", "echo", "else",
    "elseif", "empty", "enddeclare", "endfor", "endforeach", "endif", "endswitch", "endwhile",
    "eval", "exit", "extends", "final", "finally", "fn", "for", "foreach", "function", "global",
    "goto", "if", "implements", "include", "include_once", "instanceof", "insteadof",
    "interface", "isset", "list", "match", "namespace", "new", "or", "print", "private",
    "protected", "public", "readonly", "require", "require_once", "return", "static", "switch",
    "throw", "trait", "try", "unset", "use", "var", "while", "xor", "yield", "__class__",
    "__dir__", "__file__", "__function__", "__line__", "__method__", "__namespace__",
    "__property__", "__trait__", "self", "parent", "int", "float", "bool", "string", "true",
    "false", "null", "void", "iterable", "object", "mixed", "never"].map String.toList

/-- Whether a class may be called so: the text is a name, and no word that means something
else. -/
def IsClassName (name : List Char) : Prop := isName name ∧ folded name ∉ reservedWords

/-- No word that means something else ends in the word for blocks. -/
theorem append_block_notMem_reservedWords (front : List Char) :
    front ++ "block".toList ∉ reservedWords := by
  have others : reservedWords.all fun word => !"block".toList.isSuffixOf word := by
    decide +kernel
  intro held
  have behind := List.all_eq_true.mp others _ held
  rw [List.isSuffixOf_iff_suffix.mpr (List.suffix_append front _)] at behind
  cases behind

namespace Declaration

/-- The full name of a class that is named in a file. No file here imports a name, so every
name stands for a class of the namespace. -/
def fullName (declared : Declaration) (name : List Char) : List Char :=
  declared.space ++ '\\' :: name

/-- Whether a class is said to extend itself, so that it cannot be declared. -/
def ExtendsItself (declared : Declaration) : Prop :=
  folded (declared.fullName declared.name) = folded (declared.fullName declared.parent)

theorem extendsItself_iff {declared : Declaration} :
    declared.ExtendsItself ↔ folded declared.name = folded declared.parent := by
  simp [ExtendsItself, fullName, folded]

end Declaration

end BlockForge.Code

namespace BlockForge.Generate

open BlockForge.Code BlockForge.Text

def noticeSteps : List Step :=
  [.apply (fileComment.map line), line ("namespace " ++ classNamespace ++ ";"), .blank]

/-- The head of a class file between its tag and the name of its class. -/
def notice : List Char := (runSteps classColumns noticeSteps 0).1 ++ "class ".toList

/-- The head of a class file behind the name of its class. -/
def extension : List Char := " extends AbstractBlock\n".toList

/-- The code of the head of a class file before the name of its class. -/
def noticeCode : List Char :=
  " \nnamespace Creabilis\\CreaPrettyBlocks\\Block;\n\nclass ".toList

theorem preamble_eq : preamble = openTag ++ (runSteps classColumns noticeSteps 0).1 := by
  have tag : lineAt classColumns 0 "<?php".toList = openTag := by decide
  rw [← tag]
  rfl

/-- Without its comment, the head of a class file names the namespace; and the comment is over
where the name of the class stands. -/
theorem uncommented_notice :
    uncommented .code notice = noticeCode ∧ notice.foldl CommentState.next .code = .code := by
  decide +kernel

/-- A class file up to the body of its class. -/
theorem exists_classText_eq (block : Description) :
    ∃ body, (classText block).toList =
      openTag ++ (notice ++ (block.className.toList ++ (extension ++ '\x7b' :: body))) := by
  have method : methodHead = '\x7b' :: methodHead.tail := by decide
  have parent : " extends AbstractBlock".toList ++ ['\n'] = extension := by decide
  refine ⟨methodHead.tail ++ ("return ".toList ++ '[' :: '\n' ::
    (indent definitionColumns (Entries.render (definition block)) ++
      '\n' :: (List.replicate 8 ' ' ++ ']' :: classTail))), ?_⟩
  rw [toList_classText, layout_classSteps, classHead, preamble_eq, notice, ← parent]
  nth_rewrite 1 [method]
  simp only [String.toList_append, List.append_assoc, List.cons_append, List.nil_append]

theorem isName_className {block : Description} (pascal : isPascalName block.blockName.toList) :
    isName block.className.toList := by
  have letters := isAlphanum_className pascal
  rw [Description.className, String.toList_append] at letters ⊢
  cases named : block.blockName.toList with
  | nil =>
      rw [named] at pascal
      cases pascal
  | cons first rest =>
      rw [named, isPascalName, Bool.and_eq_true] at pascal
      rw [named, List.cons_append, List.all_cons, Bool.and_eq_true] at letters
      have noDigit : first.isDigit = false := by
        have all : Pattern.upper.all fun c => !c.isDigit := by decide
        simpa using List.all_eq_true.mp all first (Pattern.mem_upper.mpr pascal.1)
      have labels {c : Char} (letter : c.isAlphanum) : isLabelChar c := by
        rw [isLabelChar, letter, Bool.true_or, Bool.true_or]
      rw [List.cons_append, isName, labels letters.1, noDigit]
      simp only [Bool.not_false, Bool.and_self, Bool.true_and, List.all_eq_true]
      intro c held
      exact labels (List.all_eq_true.mp letters.2 c held)

/-- The tokens of the head of a class file. -/
def headTokens (name : List Char) : List Token :=
  ["namespace", "Creabilis", "\\", "CreaPrettyBlocks", "\\", "Block", ";", "class"].map
    (fun word => .plain word.toList) ++
      [.plain name, .plain "extends".toList, .plain "AbstractBlock".toList]

theorem tokens?_head {name : List Char} (named : isName name) :
    tokens? (noticeCode ++ (name ++ extension)) = some (headTokens name) := by
  have opens : noticeCode = " \nnamespace Creabilis\\CreaPrettyBlocks\\Block;".toList ++
      '\n' :: '\n' :: ("class".toList ++ [' ']) := by
    decide
  have closes : extension = ' ' :: "extends AbstractBlock\n".toList := by decide
  have front : tokens? " \nnamespace Creabilis\\CreaPrettyBlocks\\Block;".toList =
      some (["namespace", "Creabilis", "\\", "CreaPrettyBlocks", "\\", "Block", ";"].map
        fun word => .plain word.toList) := by
    rw [tokens?, lexemes_of_no_quote (by decide)]
    rfl
  have back : tokens? "extends AbstractBlock\n".toList =
      some [.plain "extends".toList, .plain "AbstractBlock".toList] := by
    rw [tokens?, lexemes_of_no_quote (by decide)]
    rfl
  have keyword : tokens? "class".toList = some [.plain "class".toList] :=
    tokens?_of_isName (by decide)
  rw [opens, closes]
  simp only [List.append_assoc, List.cons_append, List.nil_append]
  rw [tokens?_append_code front (by decide), tokens?_gap (by decide), tokens?_gap (by decide),
    tokens?_word keyword, tokens?_word (tokens?_of_isName named), back]
  rfl

theorem declarationOf?_headTokens (name : List Char) :
    declarationOf? (headTokens name) =
      some ⟨classNamespace.toList, name, "AbstractBlock".toList⟩ := by
  rfl

theorem declaration?_classText {block : Description}
    (pascal : isPascalName block.blockName.toList) :
    declaration? (classText block).toList =
      some ⟨classNamespace.toList, block.className.toList, "AbstractBlock".toList⟩ := by
  obtain ⟨body, file⟩ := exists_classText_eq block
  have letters := isAlphanum_className pascal
  obtain ⟨stripped, inCode⟩ := uncommented_notice
  have named : block.className.toList.all beginsNoComment :=
    List.all_eq_true.mpr fun c held =>
      beginsNoComment_of_isAlphanum (List.all_eq_true.mp letters c held)
  have code : uncommented .code
      (notice ++ (block.className.toList ++ (extension ++ '\x7b' :: body))) =
        (noticeCode ++ (block.className.toList ++ extension)) ++
          '\x7b' :: uncommented .code body := by
    rw [uncommented_append, stripped, inCode, uncommented_plain named,
      uncommented_plain (by decide)]
    simp only [List.append_assoc]
    rfl
  have outside : '\x7b' ∉ noticeCode ++ (block.className.toList ++ extension) := by
    apply List.not_mem_append (by decide)
    apply List.not_mem_append _ (by decide)
    exact fun held => absurd (List.all_eq_true.mp letters _ held) (by decide)
  have opened (source : List Char) : openTag.isPrefixOf? (openTag ++ source) = some source :=
    List.isPrefixOf?_eq_some_iff_append_eq.mpr rfl
  rw [declaration?, file, opened, Option.bind_some, code, Text.takeWhile_eq_front outside,
    tokens?_head (isName_className pascal), Option.bind_some, declarationOf?_headTokens]

/-- The name of a class, as it is compared with other names. -/
theorem folded_className (block : Description) :
    folded block.className.toList = folded block.blockName.toList ++ "block".toList := by
  rw [Description.className, String.toList_append, folded, List.map_append]
  rfl

/-- The class file of a checked block declares a class of the namespace of blocks under a name
that a class may have and after which the file is called; and the class extends itself, and so
cannot be declared, exactly if the block is called `Abstract` in any case. -/
theorem declaration_read_exactly (block : Description) (valid : block.issues = []) :
    ∃ declared, declaration? (classText block).toList = some declared ∧
      IsClassName declared.name ∧
      classFileName block = String.ofList declared.name ++ ".php" ∧
      declared.space = classNamespace.toList ∧
      declared.parent = "AbstractBlock".toList ∧
      (declared.ExtendsItself ↔ folded block.blockName.toList = "abstract".toList) := by
  have pascal := (checked_of_issues valid).blockName
  refine ⟨_, declaration?_classText pascal, ⟨isName_className pascal, ?_⟩, ?_, rfl, rfl, ?_⟩
  · rw [folded_className]
    exact append_block_notMem_reservedWords _
  · rw [String.ofList_toList, classFileName]
  · have parent : folded "AbstractBlock".toList = "abstract".toList ++ "block".toList := by decide
    rw [Declaration.extendsItself_iff, folded_className, parent, List.append_left_inj]

def namedBlock (name : String) : Description :=
  { twoLineBlock with blockName := name, about := name }

theorem declaration_read_exactly_hero :
    (namedBlock "Hero").issues = [] ∧
    ∃ declared, declaration? (classText (namedBlock "Hero")).toList = some declared ∧
      IsClassName declared.name ∧ ¬ declared.ExtendsItself := by
  have valid : (namedBlock "Hero").issues = [] := by decide +kernel
  obtain ⟨declared, read, legal, -, -, -, itself⟩ := declaration_read_exactly _ valid
  refine ⟨valid, declared, read, legal, fun looped => ?_⟩
  exact absurd (itself.mp looped) (by decide)

/-- A description of a block that is called `Abstract`. -/
def abstractText : String :=
  "\x7b\"blockName\":\"Abstract\",\"tplFilename\":\"demo.tpl\",\"code\":\"cpb_demo\","
    ++ "\"nameLabel\":\"Demo\",\"description\":\"Abstract\",\"hasRepeater\":false,\"fields\":[]\x7d"

/-- A description that is accepted, and a class that extends itself. -/
theorem abstract_extends_itself :
    ∃ text block declared, Description.ofJsonText text = .ok block ∧
      declaration? (classText block).toList = some declared ∧ declared.ExtendsItself := by
  have read : Description.ofJsonText abstractText = .ok (namedBlock "Abstract") := by
    apply eq_ok_of_toOption
    decide +kernel
  refine ⟨abstractText, namedBlock "Abstract", _, read, declaration?_classText (by decide), ?_⟩
  rw [Declaration.extendsItself_iff]
  decide

end BlockForge.Generate
