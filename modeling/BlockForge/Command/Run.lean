/-
# Running a command

A command is carried out on a tree of files with a timestamp and a fresh identifier, and
ends with an exit code and what is told on two streams. What is not a report but a failure
is told as its causes, the outermost first, on the stream of errors.
-/

import BlockForge.Command.Usage
import BlockForge.Work.Check
import BlockForge.Work.Library
import BlockForge.Work.Scaffold

namespace BlockForge.Command

open BlockForge.Files BlockForge.Work

/-- How a command ends. -/
structure Outcome where
  /-- The exit code: 0 for success, 1 for a failure, 2 for a mistake in the arguments. -/
  exit : Nat
  out : List String := []
  err : List String := []
  deriving DecidableEq

namespace Outcome

def report (exit : Nat) (lines : List Report.Line) : Outcome where
  exit := exit
  out := (lines.filter (·.stream = .out)).map (·.text)
  err := (lines.filter (·.stream = .err)).map (·.text)

def failure (messages : List String) : Outcome := { exit := 1, err := messages }

/-- A failure to load a description as an outcome: its wording and every broken rule. -/
def unloaded (error : LoadError) : Outcome :=
  failure (error.message :: error.issues.map Issue.text)

/-- A failure of the library as an outcome. Broken rules of a saved description are a
report. -/
def ofLibrary : Library.Failure → Outcome
  | .invalidSaved id issues => report 1 (invalidLines id issues)
  | other => failure other.messages

def text (lines : List String) : Outcome := { exit := 0, out := lines }

def misuse : Outcome := { exit := 2 }

end Outcome

/-- What a command needs besides its settings. -/
structure Setting where
  library : String
  fresh : String
  now : Timestamp

/-- An action that ends with an outcome either way. -/
def concluding {ε α : Type} (action : Action ε α) (failed : ε → Outcome)
    (done : α → Outcome) : StateM FileTree Outcome := do
  match ← action.run with
  | .ok result => return done result
  | .error fault => return failed fault

/-- Loads a description from a file and goes on with it. -/
def withFile (input : String) (next : Description → StateM FileTree Outcome) :
    StateM FileTree Outcome := do
  match loadFile (← get) input with
  | .ok block => next block
  | .error error => return .unloaded error

def onBake (action : Action BakeFailure BakeReport) : StateM FileTree Outcome :=
  concluding action (fun failure => .failure failure.messages) fun report =>
    .report 0 report.lines

def onLibrary (action : Action Library.Failure (List Report.Line)) :
    StateM FileTree Outcome :=
  concluding action .ofLibrary (.report 0)

/-- Why a name cannot be asked for. -/
def noTerminal : List String :=
  ["Failed to get block name", "IO error: not a terminal", "not a terminal"]

def Instruction.run (command : Instruction) (setting : Setting) : StateM FileTree Outcome :=
  let store := Library.fileStore setting.library
  match command with
  | .init (some name) output format repeater =>
    concluding (Work.init name repeater format output)
      (fun failure => .failure failure.messages) fun report => .report 0 report.lines
  | .init none _ _ _ => return .failure noTerminal
  | .check input => do
    match Work.check (← get) input with
    | .ok report => return .report (if report.isValid then 0 else 1) report.lines
    | .error error => return .unloaded error
  | .bake input output delivery =>
    withFile input fun block => onBake (Work.bake block delivery output)
  | .save input =>
    withFile input fun block => onLibrary (saveBlock store setting.fresh block setting.now)
  | .update id input =>
    withFile input fun block => onLibrary (updateBlock store id block setting.now)
  | .list => onLibrary (listBlocks store)
  | .print id => onLibrary (showBlock store id)
  | .delete id => onLibrary (deleteBlock store id)
  | .bakeSaved id output => do
    match ← (Work.bakeSaved store id output).run with
    | .ok baking => onBake baking
    | .error failure => return .ofLibrary failure
  | .completions shell => return .text (completionLines shell)

/-- Runs the program with its arguments, the library that the environment names, a fresh
identifier and the time. -/
def runProgram (arguments : List String) (environment : Option String) (fresh : String)
    (now : Timestamp) : StateM FileTree Outcome :=
  match readArguments arguments with
  | .help topic => return .text (helpLines topic)
  | .version => return .text [versionLine]
  | .misuse => return .misuse
  | .run libraries command =>
    match chooseLibrary? environment libraries with
    | some library => command.run ⟨library, fresh, now⟩
    | none => return .misuse

/-- The paths of the files that a command reads and does not write. -/
def Instruction.inputs : Instruction → List String
  | .check input => [input]
  | .bake input _ _ => [input]
  | .save input => [input]
  | .update _ input => [input]
  | _ => []

def inputsOf (arguments : List String) (environment : Option String) : List String :=
  match readArguments arguments with
  | .run libraries command => (chooseLibrary? environment libraries).toList ++ command.inputs
  | _ => []

end BlockForge.Command
