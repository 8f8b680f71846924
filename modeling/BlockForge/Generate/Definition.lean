/-
# The definition class

The class of a block has one method, which returns the array that tells the back office
what the block is and which fields it has. The array has an entry for the fields exactly
if there are fields, and one for the repeater exactly if it is active.
-/

import BlockForge.Code.Layout
import BlockForge.Generate.FieldArray

namespace BlockForge.Generate

open BlockForge.Code

/-- The comment that opens every generated class file, line by line. -/
def fileComment : List String :=
  ["/**",
    " * Copyright since 2002 Creabilis",
    " *",
    " * NOTICE OF LICENSE",
    " *",
    " * This source file is subject to the Academic Free License 3.0 (AFL-3.0)",
    " * that is bundled with this package in the file LICENSE.txt.",
    " * It is also available through the world-wide-web at this URL:",
    " * https://opensource.org/licenses/AFL-3.0",
    " *",
    " * @author    Creabilis <contact@creabilis.com>",
    " * @copyright Since 2002 Creabilis",
    " * @license   https://opensource.org/licenses/AFL-3.0 Academic Free License 3.0 (AFL-3.0)",
    " * International Registered Trademark & Property of Creabilis",
    " */"]

def classNamespace : String := "Creabilis\\CreaPrettyBlocks\\Block"

/-- The directory of templates inside the module. -/
def templateDirectory : String := "/views/templates/blocks/"

/-- The expression for the path of a template inside the module that is installed. -/
def templatePath (template : String) : String :=
  "'module:' . $this->module->name . '" ++ templateDirectory
    ++ String.ofList (escape template.toList) ++ "'"

/-- The entry of the fields, if there are any. -/
def configEntry : List Field → Entries
  | [] => []
  | fields => [entry "config" (.array [entry "fields" (.array (fieldsEntries fields))])]

def repeaterEntries (repeater : Repeater) : Entries :=
  [entry "name" (.localized repeater.label),
    entry "nameFrom" (.string repeater.nameFrom),
    entry "groups" (.array (fieldsEntries repeater.fields))]

/-- The entry of the repeater, if it is active. -/
def repeaterEntry (repeater : Option Repeater) : Entries :=
  match repeater with
  | some repeater => [entry "repeater" (.array (repeaterEntries repeater))]
  | none => []

/-- The array that the definition of a block returns. -/
def definition (block : Description) : Entries :=
  [entry "name" (.localized block.displayName),
    entry "description" (.localized block.about),
    entry "code" (.string block.code),
    entry "tab" (.string block.tab),
    entry "icon" (.string block.icon),
    entry "need_reload" (.bool true),
    entry "templates"
      (.array [entry "default" (.expression (templatePath block.template))])]
    ++ configEntry block.fields
    ++ repeaterEntry block.activeRepeater

def line (text : String) : Step := .line text.toList

/-- A block of fixed header and closing line. -/
def enclosed (header close : String) (body : List Step) : Step :=
  .block header.toList close.toList body

/-- The steps of the class file. -/
def classSteps (block : Description) : List Step :=
  [line "<?php",
    .apply (fileComment.map line),
    line ("namespace " ++ classNamespace ++ ";"),
    .blank,
    line ("class " ++ block.className ++ " extends AbstractBlock"),
    line "\x7b",
    .indent,
    line "public function getDefinition(): array",
    line "\x7b",
    .indent,
    enclosed "return [" "];" [.lines (Entries.render (definition block))],
    .dedent,
    line "\x7d",
    .dedent,
    line "\x7d"]

def classText (block : Description) : String :=
  String.ofList (layout classColumns (classSteps block))

def classFileName (block : Description) : String := block.className ++ ".php"

end BlockForge.Generate
