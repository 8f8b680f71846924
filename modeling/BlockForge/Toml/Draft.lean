/-
# Tables in the making

A TOML document builds its tables piece by piece. Three ways lead to a table: a header
declares it, a longer header implies it, and a dotted key makes it on the way. How a table
came about decides what may still be added to it: a declared table is not declared again
and is not reached by dotted keys, and a table made by dotted keys is not declared at all.
Values that are written in one piece are never added to.

Every addition either gives the larger draft or fails, and it never changes a value that
is there.
-/

import BlockForge.Toml.Value

namespace BlockForge.Toml

/-- How a table came about. -/
inductive TableOrigin where
  /-- By a longer header. -/
  | implied
  /-- By a dotted key. -/
  | dotted
  /-- By a header of its own, or as the document itself. -/
  | declared
  deriving DecidableEq

/-- What a key of a draft holds. -/
inductive Draft where
  | value (v : Value)
  | table (origin : TableOrigin) (entries : List (String × Draft))
  /-- Declared tables under one header, the last one of which may still grow. -/
  | tables (earlier : List (List (String × Draft))) (last : List (String × Draft))

abbrev DraftEntries := List (String × Draft)

def replaceEntry (key : String) (held : Draft) (entries : DraftEntries) : DraftEntries :=
  entries.map fun (other, before) => if other = key then (other, held) else (other, before)

/-- An addition to a table of a given origin. -/
abbrev Addition := TableOrigin → DraftEntries → Option DraftEntries

/-- Makes an addition to the table that a path leads to. Tables on the way that are not
there are made. -/
def Addition.under (dotted : Bool) : List String → Addition → Addition
  | [], add => add
  | key :: path, add => fun _ entries =>
    match entries.lookup key with
    | none =>
      let origin := if dotted then .dotted else .implied
      (Addition.under dotted path add origin []).map fun inner =>
        entries ++ [(key, .table origin inner)]
    | some (.value _) => none
    | some (.table origin inner) =>
      if dotted && origin = .declared then none
      else
        (Addition.under dotted path add origin inner).map fun inner =>
          replaceEntry key (.table origin inner) entries
    | some (.tables earlier last) =>
      (Addition.under dotted path add .declared last).map fun last =>
        replaceEntry key (.tables earlier last) entries

/-- Adds a value under a key. A table that a dotted key leads to has to have been made by
dotted keys. -/
def Addition.assign (byPath : Bool) (key : String) (v : Value) : Addition :=
  fun origin entries =>
    if byPath && origin ≠ .dotted then none
    else if (entries.lookup key).isSome then none
    else some (entries ++ [(key, .value v)])

def Addition.declare (key : String) : Addition := fun _ entries =>
  match entries.lookup key with
  | none => some (entries ++ [(key, .table .declared [])])
  | some (.table .implied inner) => some (replaceEntry key (.table .declared inner) entries)
  | some _ => none

/-- Declares a further table among those under a key. -/
def Addition.declareNext (key : String) : Addition := fun _ entries =>
  match entries.lookup key with
  | none => some (entries ++ [(key, .tables [] [])])
  | some (.tables earlier last) =>
    some (replaceEntry key (.tables (earlier ++ [last]) []) entries)
  | some _ => none

mutual

/-- The value that a draft has become. -/
def Draft.finished : Draft → Value
  | .value v => v
  | .table _ entries => .table (finishedEntries entries)
  | .tables earlier last =>
    .array (finishedTables earlier ++ [.table (finishedEntries last)])

def finishedEntries : List (String × Draft) → Entries
  | [] => []
  | (key, held) :: rest => (key, held.finished) :: finishedEntries rest

/-- The values that tables under one header have become. -/
def finishedTables : List (List (String × Draft)) → List Value
  | [] => []
  | entries :: rest => .table (finishedEntries entries) :: finishedTables rest

end

end BlockForge.Toml
