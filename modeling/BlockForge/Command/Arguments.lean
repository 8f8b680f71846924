/-
# The command line

What is asked for on a command line: a command with its settings, a help text, the version,
or nothing that makes sense. Arguments are read from the left. A word that is no switch
either chooses a command of a group or fills a place of a command, and two dashes end the
switches. A switch that carries a value has it in the same argument or in the next one,
which may not look like a switch; no switch but the one that is counted is given twice.

Help and version are answered as soon as they are met, and a mistake ends the reading as
soon as it is met. That something is missing is only noticed at the end.
-/

import BlockForge.Block.Loading
import BlockForge.Work.Bake

namespace BlockForge.Command

open BlockForge.Work (Delivery)

inductive Switch where
  | input
  | output
  | format
  | repeater
  | zip
  | dryRun
  | library
  /-- How much is told about the work; it is counted. -/
  | verbose
  | help
  | version
  deriving DecidableEq

namespace Switch

/-- The name of a switch after two dashes. -/
def long : Switch → String
  | input => "input"
  | output => "output"
  | format => "format"
  | repeater => "repeater"
  | zip => "zip"
  | dryRun => "dry-run"
  | library => "library"
  | verbose => "verbose"
  | help => "help"
  | version => "version"

/-- The letter of a switch after one dash. -/
def short? : Switch → Option Char
  | input => some 'i'
  | output => some 'o'
  | format => some 'f'
  | verbose => some 'v'
  | help => some 'h'
  | version => some 'V'
  | _ => none

def hasValue : Switch → Bool
  | input => true
  | output => true
  | format => true
  | library => true
  | _ => false

/-- Whether a switch may carry a value: a path is not empty, and a format is one of those
known. -/
def accepts (switch : Switch) (value : String) : Bool :=
  match switch with
  | format => (Format.ofName? value).isSome
  | _ => !value.isEmpty

end Switch

/-- A shell that completions are made for. -/
inductive Shell where
  | bash
  | elvish
  | fish
  | powershell
  | zsh
  deriving DecidableEq

def Shell.ofName? (name : String) : Option Shell :=
  match name with
  | "bash" => some .bash
  | "elvish" => some .elvish
  | "fish" => some .fish
  | "powershell" => some .powershell
  | "zsh" => some .zsh
  | _ => none

/-- A command with its settings. -/
inductive Instruction where
  | init (name : Option String) (output : String) (format : Format) (repeater : Bool)
  | check (input : String)
  | bake (input output : String) (delivery : Delivery)
  | save (input : String)
  | update (id input : String)
  | list
  | print (id : String)
  | delete (id : String)
  | bakeSaved (id output : String)
  | completions (shell : Shell)
  deriving DecidableEq

/-- The commands by their names. One name may stand for two of them: `bake` is a command
outside of the library and another one inside of it. -/
inductive Verb where
  | init
  | check
  | bake
  | completions
  | save
  | update
  | list
  | print
  | delete
  | bakeSaved
  deriving DecidableEq

namespace Verb

def ofName? (name : String) : Option Verb :=
  match name with
  | "init" => some init
  | "check" => some check
  | "bake" => some bake
  | "completions" => some completions
  | _ => none

/-- The command of a name of the library. -/
def ofLibraryName? (name : String) : Option Verb :=
  match name with
  | "save" => some save
  | "update" => some update
  | "list" => some list
  | "show" => some print
  | "delete" => some delete
  | "bake" => some bakeSaved
  | _ => none

/-- The switches that only a command has. -/
def ownSwitches : Verb → List Switch
  | init => [.output, .format, .repeater]
  | check => [.input]
  | bake => [.input, .output, .zip, .dryRun]
  | save => [.input]
  | update => [.input]
  | bakeSaved => [.output]
  | _ => []

/-- How many words a command takes. -/
def places : Verb → Nat
  | init => 1
  | completions => 1
  | update => 1
  | print => 1
  | delete => 1
  | bakeSaved => 1
  | _ => 0

/-- Whether a command takes a word. -/
def takes (verb : Verb) (word : String) : Bool :=
  match verb with
  | completions => (Shell.ofName? word).isSome
  | _ => true

end Verb

def commonSwitches : List Switch := [.library, .verbose, .help]

/-- What was given on one level of a command line. -/
structure Given where
  /-- The switches with their values, the last one first. -/
  values : List (Switch × String) := []
  flags : List Switch := []
  words : List String := []

namespace Given

def value? (given : Given) (switch : Switch) : Option String := given.values.lookup switch

def has (given : Given) (switch : Switch) : Bool := given.flags.contains switch

def word? (given : Given) : Option String := given.words.getLast?

def withValue? (given : Given) (switch : Switch) (value : String) : Option Given :=
  if (given.value? switch).isSome || !switch.accepts value then none
  else some { given with values := (switch, value) :: given.values }

def withFlag? (given : Given) (switch : Switch) : Option Given :=
  if given.has switch && switch ≠ .verbose then none
  else some { given with flags := switch :: given.flags }

end Given

/-- What one level of a command line takes. -/
structure Level where
  switches : List Switch
  places : Nat := 0
  takes : String → Bool := fun _ => true
  /-- Whether a word chooses a command instead. -/
  isGroup : Bool := false

/-- How the reading of one level ends. -/
inductive LevelEnd where
  | finished (given : Given)
  | chosen (given : Given) (word : String) (rest : List String)
  | help
  | version
  | misuse

/-- How the reading of letters after one dash ends. -/
inductive LettersEnd where
  | finished (given : Given)
  /-- With a switch that carries a value, which may stand in the same argument. -/
  | valued (given : Given) (switch : Switch) (value : Option String)
  | help
  | version
  | misuse

/-- The value that stands in the same argument as the letter of its switch. -/
def attachedValue (rest : List Char) : Option String :=
  match rest with
  | [] => none
  | '=' :: value => some (String.ofList value)
  | value => some (String.ofList value)

/-- Reads the letters after one dash. -/
def readLetters (level : Level) : Given → List Char → LettersEnd
  | given, [] => .finished given
  | given, letter :: rest =>
    match level.switches.find? (·.short? == some letter) with
    | none => .misuse
    | some .help => .help
    | some .version => .version
    | some switch =>
      if switch.hasValue then .valued given switch (attachedValue rest)
      else
        match given.withFlag? switch with
        | some given => readLetters level given rest
        | none => .misuse

/-- What the beginning of an argument says it is. -/
inductive Argument where
  /-- Two dashes: the end of the switches. -/
  | escape
  | long (name : String) (value : Option String)
  | letters (letters : List Char)
  /-- A word. A single dash is one, too. -/
  | word (text : String)

def Argument.ofText (text : String) : Argument :=
  match text.toList with
  | ['-', '-'] => .escape
  | '-' :: '-' :: rest =>
    let name := String.ofList (rest.takeWhile (· != '='))
    match rest.dropWhile (· != '=') with
    | [] => .long name none
    | _ :: value => .long name (some (String.ofList value))
  | ['-'] => .word text
  | '-' :: marks => .letters marks
  | _ => .word text

/-- Whether an argument is a word, which it has to be to be the value of a switch. -/
def isWord (text : String) : Bool :=
  match Argument.ofText text with
  | .word _ => true
  | _ => false

/-- Takes in a switch with a value, or notices a mistake, and goes on. -/
def goOn (given : Option Given) (next : Given → LevelEnd) : LevelEnd :=
  match given with
  | some given => next given
  | none => .misuse

/-- Takes in words after the end of the switches. -/
def readWords (level : Level) (given : Given) : List String → LevelEnd
  | [] => .finished given
  | word :: rest =>
    if !level.isGroup && given.words.length < level.places && level.takes word then
      readWords level { given with words := word :: given.words } rest
    else .misuse

/-- Reads one level of a command line. A switch that still waits for its value is passed
on. -/
def readLevel (level : Level) : Option Switch → Given → List String → LevelEnd
  | none, given, [] => .finished given
  | some _, _, [] => .misuse
  | some switch, given, value :: rest =>
    if isWord value then
      goOn (given.withValue? switch value) fun given => readLevel level none given rest
    else .misuse
  | none, given, text :: rest =>
    let valued (given : Given) (switch : Switch) (value : Option String) : LevelEnd :=
      match value with
      | some value =>
        goOn (given.withValue? switch value) fun given => readLevel level none given rest
      | none => readLevel level (some switch) given rest
    match Argument.ofText text with
    | .escape => readWords level given rest
    | .long name value =>
      match level.switches.find? (·.long == name) with
      | none => .misuse
      | some switch =>
        if switch.hasValue then valued given switch value
        else if value.isSome then .misuse
        else if switch = .help then .help
        else if switch = .version then .version
        else goOn (given.withFlag? switch) fun given => readLevel level none given rest
    | .letters letters =>
      match readLetters level given letters with
      | .finished given => readLevel level none given rest
      | .valued given switch value => valued given switch value
      | .help => .help
      | .version => .version
      | .misuse => .misuse
    | .word word =>
      if level.isGroup then .chosen given word rest
      else if given.words.length < level.places && level.takes word then
        readLevel level none { given with words := word :: given.words } rest
      else .misuse

/-- What is asked for on a command line. -/
inductive Question where
  | run (libraries : List (Option String)) (command : Instruction)
  | help (topic : List String)
  | version
  | misuse

/-- The command of a verb with what was given, if nothing is missing. -/
def Verb.command? (verb : Verb) (given : Given) : Option Instruction :=
  let output := (given.value? .output).getD "."
  match verb with
  | .init =>
    some (.init given.word? output
      (((given.value? .format).bind Format.ofName?).getD .json) (given.has .repeater))
  | .check => (given.value? .input).map .check
  | .bake =>
    if given.has .zip && given.has .dryRun then none
    else
      let delivery :=
        if given.has .dryRun then .preview else if given.has .zip then .archive else .files
      (given.value? .input).map fun input => .bake input output delivery
  | .completions => (given.word?.bind Shell.ofName?).map .completions
  | .save => (given.value? .input).map .save
  | .update =>
    given.word?.bind fun id => (given.value? .input).map fun input => .update id input
  | .list => some .list
  | .print => given.word?.map .print
  | .delete => given.word?.map .delete
  | .bakeSaved => given.word?.map fun id => .bakeSaved id output

def readVerb (libraries : List (Option String)) (topic : List String) (verb : Verb)
    (arguments : List String) : Question :=
  let level : Level :=
    { switches := verb.ownSwitches ++ commonSwitches
      places := verb.places
      takes := verb.takes }
  match readLevel level none {} arguments with
  | .finished given =>
    match verb.command? given with
    | some command => .run (given.value? .library :: libraries) command
    | none => .misuse
  | .help => .help topic
  | .version => .version
  | _ => .misuse

/-- Reads the names that help is asked for on. -/
def readTopic (names : List String) : Question :=
  match names with
  | [] => .help []
  | ["help"] => .help names
  | ["library"] => .help names
  | [name] => if (Verb.ofName? name).isSome then .help names else .misuse
  | ["library", name] =>
    if name = "help" || (Verb.ofLibraryName? name).isSome then .help names else .misuse
  | _ => .misuse

def readLibraryTopic (names : List String) : Question :=
  match names with
  | [] => .help ["library"]
  | [name] => readTopic ["library", name]
  | _ => .misuse

def readLibrary (libraries : List (Option String)) (arguments : List String) : Question :=
  match readLevel { switches := commonSwitches, isGroup := true } none {} arguments with
  | .chosen given name rest =>
    if name = "help" then readLibraryTopic rest
    else
      match Verb.ofLibraryName? name with
      | some verb => readVerb (given.value? .library :: libraries) ["library", name] verb rest
      | none => .misuse
  | .help => .help ["library"]
  | .version => .version
  | _ => .misuse

def readArguments (arguments : List String) : Question :=
  let level : Level := { switches := .version :: commonSwitches, isGroup := true }
  match readLevel level none {} arguments with
  | .chosen given name rest =>
    let libraries := [given.value? .library]
    match name with
    | "help" => readTopic rest
    | "library" => readLibrary libraries rest
    | name =>
      match Verb.ofName? name with
      | some verb => readVerb libraries [name] verb rest
      | none => .misuse
  | .help => .help []
  | .version => .version
  | _ => .misuse

/-- The library that is used if none is named. -/
def defaultLibrary : String := ".blockgen/library.json"

/-- The library that levels name, the innermost one first. Where a level names none, the
environment may, which then has to name one that is not empty. -/
def chooseLibrary? (environment : Option String) (libraries : List (Option String)) :
    Option String :=
  if environment = some "" && libraries.any Option.isNone then none
  else some ((libraries.findSome? id).getD (environment.getD defaultLibrary))

end BlockForge.Command
