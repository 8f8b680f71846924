/-
# Help and completions

What the program tells about itself: a help text for every command and group, made from
tables of their parts, and completions for the names of the commands.
-/

import BlockForge.Command.Arguments

namespace BlockForge.Command

def programName : String := "blockgen"

def programVersion : String := "0.1.0"

/-- Names with what they stand for. -/
abbrev Glossary := List (String × String)

/-- The commands outside of the library. -/
def commandGlossary : Glossary :=
  [("init", "Create a starter block description"),
    ("check", "Validate a block description without generating code"),
    ("bake", "Generate the PHP definition and Smarty template of a block"),
    ("library", "Manage saved block descriptions"),
    ("completions", "Generate shell completions"),
    ("help", "Print this message or the help of the given subcommand(s)")]

/-- The commands of the library. -/
def libraryGlossary : Glossary :=
  [("save", "Save a description, overwriting the record with the same code"),
    ("update", "Replace a saved description"),
    ("list", "List saved descriptions, most recent first"),
    ("show", "Print a saved description as JSON"),
    ("delete", "Delete a saved description"),
    ("bake", "Generate the zip archive of a saved description"),
    ("help", "Print this message or the help of the given subcommand(s)")]

/-- What a switch is shown as in a help text. -/
def Switch.entry : Switch → String × String
  | .input => ("-i, --input <INPUT>", "Path to the block description (.json or .toml)")
  | .output => ("-o, --output <OUTPUT>", "Output directory [default: .]")
  | .format => ("-f, --format <FORMAT>", "Description file format [default: json]")
  | .repeater => ("    --repeater", "Start with a repeater")
  | .zip => ("    --zip", "Bundle both files into a zip archive")
  | .dryRun => ("    --dry-run", "Preview generated code without writing to disk")
  | .library =>
    ("    --library <LIBRARY>",
      "Path to the block library [env: BLOCKGEN_LIBRARY=] [default: .blockgen/library.json]")
  | .verbose => ("-v, --verbose...", "Increase log verbosity (-v, -vv, -vvv)")
  | .help => ("-h, --help", "Print help")
  | .version => ("-V, --version", "Print version")

def Verb.wordEntry? : Verb → Option (String × String)
  | .init => some ("[NAME]", "Block name, e.g. HeroBanner (prompted for when omitted)")
  | .completions => some ("<SHELL>", "Shell to generate completions for")
  | .update => some ("<ID>", "Library item id")
  | .print => some ("<ID>", "Library item id")
  | .delete => some ("<ID>", "Library item id")
  | .bakeSaved => some ("<ID>", "Library item id")
  | _ => none

/-- A part of a help text: a heading and a table in two columns. -/
def tableLines (heading : String) (glossary : Glossary) : List String :=
  if glossary.isEmpty then []
  else
    let width := (glossary.map (·.1.length)).foldl max 0
    let line (entry : String × String) : String :=
      "  " ++ entry.1 ++ String.ofList (List.replicate (width - entry.1.length + 2) ' ')
        ++ entry.2
    ["", heading ++ ":"] ++ glossary.map line

def groupHelp (about : String) (names : List String) (glossary : Glossary)
    (switches : List Switch) : List String :=
  [about, "", "Usage: " ++ " ".intercalate names ++ " [OPTIONS] <COMMAND>"]
    ++ tableLines "Commands" glossary ++ tableLines "Options" (switches.map Switch.entry)

def verbHelp (about : String) (names : List String) (verb : Verb) : List String :=
  let words := verb.wordEntry?.toList
  [about, "", "Usage: " ++ " ".intercalate (names ++ "[OPTIONS]" :: words.map (·.1))]
    ++ tableLines "Arguments" words
    ++ tableLines "Options" ((verb.ownSwitches ++ commonSwitches).map Switch.entry)

def programHelp : List String :=
  groupHelp "Generate PrettyBlocks blocks from JSON or TOML descriptions" [programName]
    commandGlossary (commonSwitches ++ [.version])

/-- The help text of a topic. -/
def helpLines (topic : List String) : List String :=
  let about (glossary : Glossary) (name : String) : String := (glossary.lookup name).getD ""
  match topic with
  | ["library"] =>
    groupHelp (about commandGlossary "library") [programName, "library"] libraryGlossary
      commonSwitches
  | ["library", name] =>
    match Verb.ofLibraryName? name with
    | some verb => verbHelp (about libraryGlossary name) [programName, "library", name] verb
    | none => [about libraryGlossary name]
  | [name] =>
    match Verb.ofName? name with
    | some verb => verbHelp (about commandGlossary name) [programName, name] verb
    | none => [about commandGlossary name]
  | _ => programHelp

def versionLine : String := programName ++ " " ++ programVersion

/-- Completions of the names of commands for a shell. -/
def completionLines (shell : Shell) : List String :=
  let names := " ".intercalate (commandGlossary.map (·.1))
  match shell with
  | .bash => ["complete -W \"" ++ names ++ "\" " ++ programName]
  | .zsh => ["#compdef " ++ programName, "_arguments '1:command:(" ++ names ++ ")'"]
  | .fish => ["complete -c " ++ programName ++ " -f -n __fish_use_subcommand -a '" ++ names ++ "'"]
  | .elvish =>
    ["set edit:completion:arg-completer[" ++ programName ++ "] = \x7b|@words| put " ++ names
      ++ " \x7d"]
  | .powershell =>
    ["Register-ArgumentCompleter -Native -CommandName '" ++ programName
      ++ "' -ScriptBlock \x7b '" ++ names ++ "' -split ' ' \x7d"]

end BlockForge.Command
