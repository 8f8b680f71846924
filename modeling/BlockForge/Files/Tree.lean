/-
# Trees of files

The files that the program works on, as a value. A tree maps places, lists of names from
the root of the file system on, to directories and files; the empty place is the root
itself, and one place is the working directory. Operations take paths as they are written,
resolve them name by name as an operating system does, and give a changed tree or say why
they failed. What an operation does not name stays as it was.

A file holds text, it is an archive of named texts, or it is something else that is only
known not to be text.

A path is kept as it was written, since it is shown that way. What it consists of are the
names between its slashes: empty names and single dots stand for nothing, except that a
path may start with a dot. Joining, the parent and the extension are decided on the names,
so that `a//b/.` has the parent `a` and the extension of `b`.

What has to be done to one tree for it to become another one is a list of changes. A directory
is made before what it holds, because a tree lists places in the order in which they were last
set, and nothing is set where no directory is. What is gone is removed in the end.

An action goes from a tree of files to another one and gives a result or a failure. A
failure does not undo what came before it: directories that were made stay, and a file
that was written before another one failed stays written.
-/

import BlockForge.Text.Words

namespace BlockForge.Files

/-! ## Paths as they are written -/

/-- The names of a path, empty ones and single dots left out. -/
def names (path : String) : List String :=
  ((Text.splitWhere (· == '/') path.toList).map String.ofList).filter
    fun name => !name.isEmpty && name != "."

def isAbsolute (path : String) : Bool := path.toList.head? == some '/'

/-- A path inside a directory. An absolute path stands for itself, and an empty directory
for the current one. -/
def join (directory path : String) : String :=
  if isAbsolute path || directory.isEmpty then path
  else if directory.toList.getLast? == some '/' then directory ++ path
  else directory ++ "/" ++ path

/-- The text of a path without the slashes and single dots that end it. -/
def trimmedEnd (path : List Char) : List Char :=
  let reversed := path.reverse
  let rec trim : List Char → List Char
    | '/' :: rest => trim rest
    | '.' :: '/' :: rest => trim rest
    | other => other
  (trim reversed).reverse

/-- The directory that a path lies in, as it is written: empty for a single name, nothing
for a path without names. -/
def parent? (path : String) : Option String :=
  let trimmed := trimmedEnd path.toList
  if trimmed.isEmpty then none
  else
    let directory := (trimmed.reverse.dropWhile (· != '/')).reverse
    let cut := trimmedEnd directory
    some (String.ofList (if cut.isEmpty && !directory.isEmpty then ['/'] else cut))

/-- The last name of a path, if that is not two dots. -/
def fileName? (path : String) : Option String :=
  match (names path).getLast? with
  | some name => if name = ".." then none else some name
  | none => none

/-- What follows the last dot of the last name; a dot that starts the name is none. -/
def extension (path : String) : String :=
  match fileName? path with
  | none => ""
  | some name =>
    let reversed := name.toList.reverse
    let ending := reversed.takeWhile (· != '.')
    match reversed.dropWhile (· != '.') with
    | [] => ""
    | [_] => ""
    | _ => String.ofList ending.reverse

/-! ## Trees -/

inductive FileFault where
  | notFound
  | alreadyThere
  | notDirectory
  | isDirectory
  | nameTooLong
  | nullInPath
  | notText
  deriving DecidableEq

def FileFault.message : FileFault → String
  | notFound => "No such file or directory (os error 2)"
  | alreadyThere => "File exists (os error 17)"
  | notDirectory => "Not a directory (os error 20)"
  | isDirectory => "Is a directory (os error 21)"
  | nameTooLong => "File name too long (os error 36)"
  | nullInPath => "file name contained an unexpected NUL byte"
  | notText => "stream did not contain valid UTF-8"

/-- What a file holds. -/
inductive Content where
  | text (text : String)
  | archive (entries : List (String × String))
  | other
  deriving DecidableEq

inductive Entry where
  | directory
  | file (content : Content)
  deriving DecidableEq

/-- A place: the names that lead to it from the root. -/
abbrev Place := List String

/-- A tree of files. The root is always there and not listed. -/
structure FileTree where
  /-- What is at every place but the root. -/
  entries : List (Place × Entry)
  /-- The working directory, from which paths lead that do not start at the root. -/
  base : Place

namespace FileTree

def empty : FileTree := ⟨[], []⟩

def get? (tree : FileTree) (place : Place) : Option Entry :=
  if place.isEmpty then some .directory
  else (tree.entries.find? (·.1 == place)).map (·.2)

def set (tree : FileTree) (place : Place) (entry : Entry) : FileTree :=
  { tree with entries := tree.entries.filter (·.1 != place) ++ [(place, entry)] }

/-- The tree with nothing at a place and below it. -/
def erase (tree : FileTree) (place : Place) : FileTree :=
  { tree with entries := tree.entries.filter fun (other, _) => !place.isPrefixOf other }

/-- A place that has to be that of a directory. -/
def directoryPlace (tree : FileTree) (place : Place) : Except FileFault Place :=
  match tree.get? place with
  | none => .error .notFound
  | some (.file _) => .error .notDirectory
  | some .directory => .ok place

/-- One name from a place: two dots lead back, and every other name leads on. The place has
to be a directory for either. -/
def step (tree : FileTree) (place : Place) (name : String) : Except FileFault Place :=
  match tree.directoryPlace place with
  | .error fault => .error fault
  | .ok place =>
    if name = ".." then .ok place.dropLast
    else if 255 < name.utf8ByteSize then .error .nameTooLong
    else .ok (place ++ [name])

/-- The place that names lead to. All but the last one have to be there. -/
def walk (tree : FileTree) : Place → List String → Except FileFault Place
  | place, [] => .ok place
  | place, name :: rest =>
    match tree.step place name with
    | .error fault => .error fault
    | .ok next => tree.walk next rest

/-- Whether a path is written as that of a directory, with a slash at its end. -/
def namesDirectory (path : String) : Bool := path.toList.getLast? == some '/'

/-- Whether a path ends in a single dot, which stands for a directory that is there. -/
def endsInDot (path : String) : Bool :=
  match path.toList.reverse with
  | '.' :: '/' :: _ => true
  | ['.'] => true
  | _ => false

/-- The place of a path. An empty path leads nowhere. -/
def resolve (tree : FileTree) (path : String) : Except FileFault Place :=
  if path.toList.contains '\x00' then .error .nullInPath
  else if path.isEmpty then .error .notFound
  else
    match tree.walk (if isAbsolute path then [] else tree.base) (names path) with
    | .error fault => .error fault
    | .ok place => if endsInDot path then tree.directoryPlace place else .ok place

def entryAt (tree : FileTree) (path : String) : Except FileFault Entry :=
  match tree.resolve path with
  | .error fault => .error fault
  | .ok place =>
    match tree.get? place with
    | none => .error .notFound
    | some (.file content) =>
      if namesDirectory path then .error .notDirectory else .ok (.file content)
    | some .directory => .ok .directory

def isThere (tree : FileTree) (path : String) : Bool :=
  match tree.entryAt path with
  | .ok _ => true
  | .error _ => false

def isDirectoryAt (tree : FileTree) (path : String) : Bool :=
  match tree.entryAt path with
  | .ok .directory => true
  | _ => false

def readText (tree : FileTree) (path : String) : Except FileFault String :=
  match tree.entryAt path with
  | .error fault => .error fault
  | .ok .directory => .error .isDirectory
  | .ok (.file (.text text)) => .ok text
  | .ok (.file _) => .error .notText

/-- Writes a file, in place of one that is there. Its directory has to be there. -/
def write (tree : FileTree) (path : String) (content : Content) : Except FileFault FileTree :=
  match tree.resolve path with
  | .error fault => .error fault
  | .ok place =>
    match tree.get? place with
    | some .directory => .error .isDirectory
    | some (.file _) =>
      if namesDirectory path then .error .notDirectory
      else .ok (tree.set place (.file content))
    | none =>
      if tree.get? place.dropLast = some .directory then
        if namesDirectory path then .error .isDirectory
        else .ok (tree.set place (.file content))
      else .error .notFound

/-- Makes a file without text, or leaves the file that is there. -/
def touch (tree : FileTree) (path : String) : Except FileFault FileTree :=
  match tree.entryAt path with
  | .ok .directory => .error .isDirectory
  | .ok (.file _) => .ok tree
  | .error .notFound => tree.write path (.text "")
  | .error fault => .error fault

/-- Makes one directory where nothing is. -/
def makeDirectory (tree : FileTree) (path : String) : Except FileFault FileTree :=
  match tree.resolve path with
  | .error fault => .error fault
  | .ok place =>
    match tree.get? place with
    | some _ => .error .alreadyThere
    | none =>
      if tree.get? place.dropLast = some .directory then .ok (tree.set place .directory)
      else .error .notFound

/-- Moves a file to another path, in place of a file that is there. -/
def move (tree : FileTree) (source target : String) : Except FileFault FileTree :=
  match tree.entryAt source, tree.resolve source with
  | .error fault, _ => .error fault
  | _, .error fault => .error fault
  | .ok .directory, _ => .error .isDirectory
  | .ok (.file content), .ok place => (tree.erase place).write target content

end FileTree

/-! ## Changes between trees -/

/-- A change at one place. -/
inductive Alteration where
  | put (place : Place) (entry : Entry)
  | drop (place : Place)
  deriving DecidableEq

def Alteration.place : Alteration → Place
  | put place _ => place
  | drop place => place

/-- What has to be done to a tree for it to become another one. -/
def FileTree.changesTo (before after : FileTree) : List Alteration :=
  let put := after.entries.filter fun (place, entry) => before.get? place != some entry
  let gone := before.entries.filter fun (place, _) => (after.get? place).isNone
  put.map (fun (place, entry) => .put place entry) ++ gone.map fun (place, _) => .drop place

def Place.path (place : Place) : String := "/" ++ "/".intercalate place

/-- The places on the way of a path, whatever is there: two dots lead back. -/
def waysFrom : Place → List String → List Place
  | place, [] => [place]
  | place, name :: rest =>
    place :: waysFrom (if name = ".." then place.dropLast else place ++ [name]) rest

/-- The places that a path leads through from a working directory on. -/
def placesOf (base : Place) (path : String) : List Place :=
  waysFrom (if isAbsolute path then [] else base) (names path)

/-! ## Actions -/

variable {ε δ α : Type}

/-- An action on files that may fail. -/
abbrev Action (ε α : Type) := ExceptT ε (StateM FileTree) α

namespace Action

/-- Changes the tree, or fails and leaves it as it is. -/
def change (f : FileTree → Except ε FileTree) : Action ε Unit := do
  match f (← get) with
  | .ok tree => set tree
  | .error fault => throw fault

def look (f : FileTree → α) : Action ε α :=
  return f (← get)

def take (f : FileTree → Except ε α) : Action ε α := do
  match f (← get) with
  | .ok result => return result
  | .error fault => throw fault

/-- An action whose failures are told in other words. -/
def mapFault (f : ε → δ) (action : Action ε α) : Action δ α :=
  ExceptT.mk do
    match ← action.run with
    | .ok result => return .ok result
    | .error fault => return .error (f fault)

end Action

/-- Makes one directory; one that is there already is fine. -/
def makeDirectory (path : String) : Action FileFault Unit := do
  match (← get).makeDirectory path with
  | .ok tree => set tree
  | .error fault => unless (← get).isDirectoryAt path do throw fault

/-- Makes a directory and those that lead to it, looking at most `fuel` levels back. -/
def makeDirectoriesWithin : Nat → String → Action FileFault Unit
  | 0, _ => throw .notFound
  | fuel + 1, path => do
    if path.isEmpty then return
    match (← get).makeDirectory path with
    | .ok tree => set tree
    | .error .notFound =>
      match parent? path with
      | none => throw .notFound
      | some parent =>
        makeDirectoriesWithin fuel parent
        makeDirectory path
    | .error fault => unless (← get).isDirectoryAt path do throw fault

def makeDirectories (path : String) : Action FileFault Unit :=
  makeDirectoriesWithin (path.length + 1) path

end BlockForge.Files
