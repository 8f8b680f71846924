/-
# The template

The template shows a block on a page. A block without a repeater has one part; with one,
the part is repeated for every item. Both are framed by a container that a setting of the
block turns off, opened and closed under one condition.
-/

import BlockForge.Generate.Definition

namespace BlockForge.Generate

open BlockForge.Code

/-- Replaces the first occurrence of a text. -/
def replaceFirst (old new : List Char) : List Char → List Char
  | [] => if old.isEmpty then new else []
  | c :: rest =>
    match old.isPrefixOf? (c :: rest) with
    | some after => new ++ after
    | none => c :: replaceFirst old new rest

/-- The class of the outermost element: the code with its mark set off by a dash. -/
def cssBasename (code : String) : String :=
  String.ofList (replaceFirst "cpb_".toList "cpb-".toList code.toList)

/-- The condition under which the container is there. -/
def containerGuard : String := "\x7bif !$block.settings.default.container\x7d"

def endIf : String := "\x7b/if\x7d"

def openContainer : Step :=
  enclosed containerGuard endIf [line "<div class=\"container\">"]

def closeContainer : Step :=
  enclosed containerGuard endIf [line "</div>"]

def element (tag cssClass : String) (body : List Step) : Step :=
  enclosed ("<" ++ tag ++ " class=\"" ++ cssClass ++ "\">") ("</" ++ tag ++ ">") body

/-- The comment that opens a template. -/
def templateHeader (block : Description) (suffix : String) : List Step :=
  [line "\x7b**",
    line (" * Prettyblocks template - " ++ block.blockName ++ suffix),
    line " *\x7d",
    .blank]

/-- The steps of a template without a repeater. -/
def flatSteps (block : Description) : List Step :=
  let base := cssBasename block.code
  templateHeader block "" ++
    [element "div" base
      [openContainer,
        .blank,
        element "div" (base ++ "__inner")
          [line "\x7b* Example field usage *\x7d",
            enclosed "\x7bif !empty($block.settings.title)\x7d" endIf
              [element "p" (base ++ "__title") [line "\x7b$block.settings.title\x7d"]]],
        .blank,
        closeContainer]]

/-- The steps of one item. -/
def itemSteps (base : String) : Step :=
  element "div" "col-12 col-md-6"
    [element "div" (base ++ "__item card")
      [element "div" "card-body"
        [line "\x7b* Example repeater field usage *\x7d",
          enclosed "\x7bif !empty($block.title)\x7d" endIf
            [element "p" (base ++ "__title") [line "\x7b$block.title nofilter\x7d"]]]]]

/-- The steps of a template with a repeater. -/
def repeaterSteps (block : Description) : List Step :=
  let base := cssBasename block.code
  templateHeader block " (Repeater)" ++
    [line "\x7b$blocks = $block.states\x7d",
      .blank,
      enclosed "\x7bif !empty($blocks)\x7d" endIf
        [element "div" base
          [openContainer,
            .blank,
            element "div" (base ++ "__items row g-3")
              [enclosed "\x7bforeach from=$blocks item=block\x7d" "\x7b/foreach\x7d"
                [itemSteps base]],
            .blank,
            closeContainer]]]

/-- The steps of the template of a block. -/
def templateSteps (block : Description) : List Step :=
  if block.hasRepeater then repeaterSteps block else flatSteps block

def templateText (block : Description) : String :=
  String.ofList (layout templateColumns (templateSteps block))

end BlockForge.Generate
