/-
# Loading descriptions

A description comes from a JSON text, a TOML text or a stored value. Every way of loading
one checks it afterwards, so what has been loaded is safe to generate from. Loading fails
in one of six ways, each of which knows what it needs for its report.

A TOML text that is not plain is loaded if no reader asks for the value that cannot be read.
Should it fail, though, it is told to be no TOML text, whatever it fails for.
-/

import BlockForge.Block.Encoding
import BlockForge.Block.Validation
import BlockForge.Files.Tree
import BlockForge.Json.Fault
import BlockForge.Toml.Tree

namespace BlockForge

open BlockForge.Json

/-- A format that descriptions are written in. -/
inductive Format where
  | json
  | toml
  deriving DecidableEq

namespace Format

/-- The name of a format, which is also the extension of its files. -/
def name : Format → String
  | json => "json"
  | toml => "toml"

/-- The format of a name in any case. -/
def ofName? (text : String) : Option Format :=
  match Text.lowerText text with
  | "json" => some .json
  | "toml" => some .toml
  | _ => none

def unknownMessage (text : String) : String :=
  "unknown format '" ++ text ++ "', expected 'json' or 'toml'"

end Format

/-- Why a description could not be loaded. -/
inductive LoadError where
  | unreadable (path : String) (fault : Files.FileFault)
  | unsupported (extension : String)
  /-- The text does not have the form of a description; where that is, if it is known. -/
  | malformed (detail : String) (span : Option Nat)
  | notToml
  | mismatched (detail : String)
  | invalid (issues : List Issue)

namespace LoadError

def message : LoadError → String
  | unreadable path _ => "failed to read '" ++ path ++ "'"
  | unsupported extension => "unsupported description format '" ++ extension ++ "'"
  | malformed _ _ => "failed to parse block description"
  | notToml => "failed to parse block description"
  | mismatched detail => "block description payload does not match the schema: " ++ detail
  | invalid issues =>
    let count := String.ofList (natChars issues.length)
    "invalid block description (" ++ count
      ++ (if issues.length = 1 then " issue)" else " issues)")

/-- The name that a failure goes by in a report. Failures of the file system have none. -/
def code : LoadError → Option String
  | unreadable _ _ => none
  | unsupported _ => some "blockgen::unsupported_format"
  | malformed _ _ => some "blockgen::parse_error"
  | notToml => some "blockgen::parse_error"
  | mismatched _ => some "blockgen::payload_error"
  | invalid _ => some "blockgen::invalid"

/-- What can be done about a failure. -/
def help : LoadError → Option String
  | unreadable _ _ => some "run 'blockgen init <BlockName>' to create a block description"
  | unsupported _ => some "block descriptions are read from .json or .toml files"
  | malformed _ _ => none
  | notToml => none
  | mismatched _ => none
  | invalid _ => some "fix the listed fields and run 'blockgen check' again"

def issues : LoadError → List Issue
  | invalid issues => issues
  | _ => []

end LoadError

/-- The format of a file, which its extension tells. -/
def Format.ofPath (path : String) : Except LoadError Format :=
  let extension := Files.extension path
  match Format.ofName? extension with
  | some format => .ok format
  | none => .error (.unsupported extension)

namespace Description

/-- Accepts a description that breaks no rule. -/
def accepted (block : Description) : Except LoadError Description :=
  if block.issues.isEmpty then .ok block else .error (.invalid block.issues)

def ofJsonText (text : String) : Except LoadError Description :=
  match readText text.toList (Block.readDescription .text) with
  | .ok block => block.accepted
  | .error fault =>
    .error (.malformed (fault.textIn text.toList) (some (fault.spanIn text.toList)))

def ofTomlText (text : String) : Except LoadError Description :=
  match Toml.readDocument? text.toList with
  | none => .error .notToml
  | some entries =>
    match Block.readDescription .table (Toml.Value.table entries).node with
    | .ok block => block.accepted
    | .error fault =>
      if Toml.plainEntries entries then
        .error (.malformed (fault.cause.message Toml.messageFloat) none)
      else .error .notToml

/-- Loads a description from a text in a format. -/
def ofText (format : Format) (text : String) : Except LoadError Description :=
  match format with
  | .json => ofJsonText text
  | .toml => ofTomlText text

/-- Loads a description from a stored value. -/
def ofValue (value : Value) : Except LoadError Description :=
  match Block.readDescription .stored (.ofValue value) with
  | .ok block => block.accepted
  | .error fault => .error (.mismatched fault.cause.text)

/-- The value of a description, its members in order. -/
def value (block : Description) : Value := Block.descriptionValue block

def text (block : Description) (format : Format) : String :=
  match format with
  | .json => block.value.prettyText
  | .toml => String.ofList (Toml.documentOf block.value)

end Description

end BlockForge
