/-
# Values that are read from source text

What a reader of PHP finds in an array literal: texts, calls that give a text in the
language of the user, numbers and constants, the name of the module, values that are run
together with a point, and arrays of these. An array keeps its entries as they are written,
in order and with repeated keys.

A value is its shape and its texts. Moving source text moves every text of the value that
is read from it and leaves the shape alone.
-/

import BlockForge.Proofs.Code.Displacement

namespace BlockForge.Code

/-- A value that is read from source text. -/
inductive Term where
  | text (text : List Char)
  | localized (text : List Char)
  | scalar (spelled : List Char)
  | moduleName
  | joined (left right : Term)
  | array (entries : List (Option (List Char) × Term))

abbrev TermEntries := List (Option (List Char) × Term)

mutual

/-- A value with every text in it changed, keys included. -/
def Term.mapTexts (change : List Char → List Char) : Term → Term
  | .text text => .text (change text)
  | .localized text => .localized (change text)
  | .scalar spelled => .scalar spelled
  | .moduleName => .moduleName
  | .joined left right => .joined (left.mapTexts change) (right.mapTexts change)
  | .array entries => .array (mapEntryTexts change entries)

def mapEntryTexts (change : List Char → List Char) : TermEntries → TermEntries
  | [] => []
  | (key, value) :: rest => (key.map change, value.mapTexts change) :: mapEntryTexts change rest

end

mutual

/-- The texts of a value in order, keys included. -/
def Term.texts : Term → List (List Char)
  | .text text => [text]
  | .localized text => [text]
  | .scalar _ => []
  | .moduleName => []
  | .joined left right => left.texts ++ right.texts
  | .array entries => entryTexts entries

def entryTexts : TermEntries → List (List Char)
  | [] => []
  | (key, value) :: rest => key.toList ++ value.texts ++ entryTexts rest

end

namespace Term

/-- The value that is read after its source text was moved to the right. -/
def displace (columns : Nat) (term : Term) : Term :=
  term.mapTexts (Code.displace columns)

/-- What is left of a value without its texts: entries, keys that are there, numbers and
constants, all in order. -/
def shape (term : Term) : Term :=
  term.mapTexts fun _ => []

end Term

theorem mapEntryTexts_eq_map (change : List Char → List Char) (entries : TermEntries) :
    mapEntryTexts change entries =
      entries.map fun (key, value) => (key.map change, value.mapTexts change) := by
  induction entries with
  | nil => rfl
  | cons first rest ih =>
      obtain ⟨key, value⟩ := first
      rw [mapEntryTexts, ih, List.map_cons]

mutual

/-- Two changes in turn are one change. -/
theorem Term.mapTexts_mapTexts (first second : List Char → List Char) :
    (term : Term) → (term.mapTexts first).mapTexts second = term.mapTexts (second ∘ first)
  | .text _ => rfl
  | .localized _ => rfl
  | .scalar _ => rfl
  | .moduleName => rfl
  | .joined left right => by
      rw [Term.mapTexts, Term.mapTexts, Term.mapTexts, left.mapTexts_mapTexts first second,
        right.mapTexts_mapTexts first second]
  | .array entries => by
      rw [Term.mapTexts, Term.mapTexts, Term.mapTexts,
        mapEntryTexts_mapEntryTexts first second entries]

theorem mapEntryTexts_mapEntryTexts (first second : List Char → List Char) :
    (entries : TermEntries) → mapEntryTexts second (mapEntryTexts first entries) =
      mapEntryTexts (second ∘ first) entries
  | [] => rfl
  | (key, value) :: rest => by
      rw [mapEntryTexts, mapEntryTexts, mapEntryTexts, value.mapTexts_mapTexts first second,
        mapEntryTexts_mapEntryTexts first second rest, Option.map_map]

end

mutual

theorem Term.texts_mapTexts (change : List Char → List Char) :
    (term : Term) → (term.mapTexts change).texts = term.texts.map change
  | .text _ => rfl
  | .localized _ => rfl
  | .scalar _ => rfl
  | .moduleName => rfl
  | .joined left right => by
      rw [Term.mapTexts, Term.texts, Term.texts, left.texts_mapTexts change,
        right.texts_mapTexts change, List.map_append]
  | .array entries => entryTexts_mapEntryTexts change entries

theorem entryTexts_mapEntryTexts (change : List Char → List Char) :
    (entries : TermEntries) →
      entryTexts (mapEntryTexts change entries) = (entryTexts entries).map change
  | [] => rfl
  | (key, value) :: rest => by
      have keys : (key.map change).toList = key.toList.map change := by
        cases key <;> rfl
      rw [mapEntryTexts, entryTexts, entryTexts, value.texts_mapTexts change,
        entryTexts_mapEntryTexts change rest, keys, List.map_append, List.map_append]

end

mutual

/-- A change that leaves a value alone leaves all its texts alone, and no other does. -/
theorem Term.mapTexts_eq_self_iff (change : List Char → List Char) :
    (term : Term) → (term.mapTexts change = term ↔ ∀ text ∈ term.texts, change text = text)
  | .text _ => by simp [Term.mapTexts, Term.texts]
  | .localized _ => by simp [Term.mapTexts, Term.texts]
  | .scalar _ => by simp [Term.mapTexts, Term.texts]
  | .moduleName => by simp [Term.mapTexts, Term.texts]
  | .joined left right => by
      rw [Term.mapTexts, Term.joined.injEq, left.mapTexts_eq_self_iff change,
        right.mapTexts_eq_self_iff change, Term.texts, List.forall_mem_append]
  | .array entries => by
      rw [Term.mapTexts, Term.array.injEq, Term.texts, mapEntryTexts_eq_self_iff change entries]

theorem mapEntryTexts_eq_self_iff (change : List Char → List Char) :
    (entries : TermEntries) → (mapEntryTexts change entries = entries ↔
      ∀ text ∈ entryTexts entries, change text = text)
  | [] => by simp [mapEntryTexts, entryTexts]
  | (key, value) :: rest => by
      have keys : key.map change = key ↔ ∀ text ∈ key.toList, change text = text := by
        cases key <;> simp
      rw [mapEntryTexts, List.cons.injEq, Prod.mk.injEq, keys, value.mapTexts_eq_self_iff change,
        mapEntryTexts_eq_self_iff change rest, entryTexts, List.forall_mem_append,
        List.forall_mem_append]

end

namespace Term

theorem displace_displace (first second : Nat) (term : Term) :
    (term.displace first).displace second = term.displace (first + second) := by
  rw [displace, displace, mapTexts_mapTexts]
  congr 1
  funext text
  exact Code.displace_displace first second text

/-- Exactly the values without a newline in a text survive a move. -/
theorem displace_eq_self_iff {columns : Nat} (moved : 0 < columns) (term : Term) :
    term.displace columns = term ↔ ∀ text ∈ term.texts, '\n' ∉ text := by
  rw [displace, mapTexts_eq_self_iff]
  simp only [Code.displace_eq_self_iff moved]

theorem shape_mapTexts (change : List Char → List Char) (term : Term) :
    (term.mapTexts change).shape = term.shape := by
  rw [shape, shape, mapTexts_mapTexts]
  rfl

end Term

end BlockForge.Code
