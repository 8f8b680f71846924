/-
# Records read back

A record is read from what was made of its value. Texts, truth values and timestamps come back as
they were, and any other value comes back in the stored form of what it has become. Columns are
told apart by their names, so the order in which their members stand does not matter.
-/

import BlockForge.Json.Record
import BlockForge.Proofs.Json.Holding
import BlockForge.Proofs.Time.Reading

namespace BlockForge.Json

/-- What a column holds after a change of its value. -/
def Column.changed (f : Value → Value) : (column : Column) → column.Cell → column.Cell
  | .text, s => s
  | .flag, b => b
  | .time, t => t
  | .any, v => (f v).canonical

namespace Shape

def names (shape : Shape) : List String := shape.map (·.1)

def changed (f : Value → Value) : (shape : Shape) → shape.Row → shape.Row
  | [], _ => ()
  | (_, column) :: rest, (cell, row) => (column.changed f cell, changed f rest row)

def known : (shape : Shape) → shape.Row → List (String × Value) → shape.Draft
  | [], _, _ => ()
  | (name, _) :: rest, (cell, row), done => (slot done name cell, known rest row done)

/-- The column of a name is read from a node as it stands in a row. -/
def Reads (origin : Origin) (node : Node) (key : String) : (shape : Shape) → shape.Row → Prop
  | [], _ => False
  | (name, column) :: rest, (cell, row) =>
    if key = name then column.read origin node = .ok cell else Reads origin node key rest row

theorem known_nil : (shape : Shape) → (row : shape.Row) → shape.known row [] = shape.emptyDraft
  | [], _ => rfl
  | (name, _) :: rest, (cell, row) => by
    rw [known, emptyDraft, slot_nil, known_nil rest row]

/-- A member does not matter to columns of other names. -/
theorem known_append_of_notMem (done : List (String × Value)) {key : String} (v : Value) :
    (shape : Shape) → (row : shape.Row) → key ∉ shape.names →
      shape.known row (done ++ [(key, v)]) = shape.known row done
  | [], _, _ => rfl
  | (name, _) :: rest, (cell, row), other => by
    rw [names, List.map_cons, List.mem_cons, not_or] at other
    rw [known, known, slot_append, if_neg (Ne.symm other.1),
      known_append_of_notMem done v rest row other.2]

theorem take_known {origin : Origin} {node : Node} {done : List (String × Value)} {key : String}
    (fresh : key ∉ keysOf done) (standing : Nat) (v : Value) :
    (shape : Shape) → (row : shape.Row) → shape.names.Nodup → Reads origin node key shape row →
      take origin key standing node shape (shape.known row done) =
        .ok (shape.known row (done ++ [(key, v)]))
  | [], _, _, reads => reads.elim
  | (name, column) :: rest, (cell, row), distinct, reads => by
    rw [names, List.map_cons, List.nodup_cons] at distinct
    rw [Reads] at reads
    rw [known, take]
    by_cases same : key = name
    · subst same
      rw [if_pos rfl] at reads
      rw [if_pos rfl, slot_of_notMem fresh, fill, reads, known,
        known_append_of_notMem done v rest row distinct.1, slot_append, if_pos rfl]
      rfl
    · rw [if_neg same] at reads
      rw [if_neg same, take_known fresh standing v rest row distinct.2 reads, known, slot_append,
        if_neg (Ne.symm same)]
      rfl

theorem close_known {all : List (String × Value)} (stop : Nat) : (shape : Shape) →
    (row : shape.Row) → (∀ name ∈ shape.names, name ∈ keysOf all) →
      close stop shape (shape.known row all) = .ok row
  | [], _, _ => rfl
  | (name, _) :: rest, (cell, row), there => by
    have here : name ∈ keysOf all := there name List.mem_cons_self
    have others := close_known stop rest row fun other held => there other (List.mem_cons_of_mem _ held)
    rw [known, close, slot, if_pos here, others]
    rfl

theorem keysOf_members : (shape : Shape) → (row : shape.Row) →
    keysOf (shape.members row) = shape.names
  | [], _ => rfl
  | (name, _) :: rest, (_, row) => congrArg (name :: ·) (keysOf_members rest row)

end Shape

theorem Node.Holds.timestamp {node : Node} {t : Timestamp}
    (holds : node.Holds (.string t.storedText)) : node.timestamp = .ok t := by
  obtain ⟨scalar, stop, rfl, value⟩ := holds.scalar (by simp) (by simp)
  cases scalar <;> cases value
  rw [Node.timestamp, Timestamp.ofText_storedText]
  rfl

section Changed

variable {g : Binary64 → Binary64} {f : Value → Value} (rearranging : Rearranging g f)
variable {origin : Origin} {node : Node}

include rearranging

theorem Column.read_changed {column : Column} {cell : column.Cell}
    (holds : node.Holds (f (column.write cell))) (admits : origin.Admits (column.write cell).depth) :
    column.read origin node = .ok (column.changed f cell) := by
  cases column with
  | text =>
      have same : f (Column.text.write cell) = .string cell := rearranging.string cell
      rw [same] at holds
      exact holds.string
  | flag =>
      have same : f (Column.flag.write cell) = .bool cell := rearranging.bool cell
      rw [same] at holds
      exact holds.bool
  | time =>
      have same : f (Column.time.write cell) = .string (Timestamp.storedText cell) :=
        rearranging.string (Timestamp.storedText cell)
      rw [same] at holds
      exact holds.timestamp
  | any =>
      have read := holds.value (admits.mono (rearranging.depth _))
      show (node.value origin).map Value.canonical = _
      rw [read]
      rfl

namespace Shape

theorem reads_of_mem {key : String} {v : Value} (holds : node.Holds (f v))
    (admits : origin.Admits v.depth) : (shape : Shape) → (row : shape.Row) → shape.names.Nodup →
      (key, v) ∈ shape.members row → Reads origin node key shape (shape.changed f row)
  | [], _, _, held => by cases held
  | (name, column) :: rest, (cell, row), distinct, held => by
    rw [names, List.map_cons, List.nodup_cons] at distinct
    rw [changed, Reads]
    rcases List.mem_cons.mp held with here | later
    · obtain ⟨rfl, rfl⟩ := Prod.mk.inj here
      rw [if_pos rfl]
      exact Column.read_changed rearranging holds admits
    · have other : key ≠ name := by
        rintro rfl
        apply distinct.1
        rw [← names, ← keysOf_members rest row]
        exact List.mem_map_of_mem (f := (·.1)) later
      rw [if_neg other]
      exact reads_of_mem holds admits rest row distinct.2 later

/-- A record is read as it stands after a change of its values. -/
theorem read_changed {shape : Shape} (distinct : shape.names.Nodup) (row : shape.Row)
    (admits : origin.Admits (shape.write row).depth) (holds : node.Holds (f (shape.write row)))
    (name : String) : shape.read name origin node = .ok (shape.changed f row) := by
  have keys : (keysOf (shape.members row)).Nodup := by
    rw [keysOf_members]
    exact distinct
  obtain ⟨arranged, same, perm⟩ := rearranging.object _ keys
  rw [write, same] at holds
  obtain ⟨start, members, rfl, hold⟩ := holds.object
  obtain ⟨inner, entered, enough, -⟩ := Origin.Admits.enter admits start
  have takes (done : List (String × Value)) (key : String) (v : Value) (standing : Nat)
      (node : Node) (held : (key, v) ∈ arranged) (fresh : key ∉ keysOf done) (holds : node.Holds v) :
      shape.take inner key standing node (shape.known (shape.changed f row) done) =
        .ok (shape.known (shape.changed f row) (done ++ [(key, v)])) := by
    obtain ⟨w, among, rfl⟩ := exists_of_perm perm held
    have deep : w.depth ≤ depthOfMembers (shape.members row) :=
      depthOfMembers_le_iff.mp (Nat.le_refl _) (key, w) among
    exact take_known fresh standing (f w) shape _ distinct
      (reads_of_mem rearranging holds (enough.mono deep) shape row distinct among)
  obtain ⟨stop, walked⟩ := @Members.Hold.fold _
    (fun draft key standing node => shape.take inner key standing node draft)
    (shape.known (shape.changed f row)) arranged takes members hold
    (Rearranging.distinct_of_perm perm keys)
  rw [Shape.read, Node.record, entered]
  show shape.ofMembers inner members = _
  rw [ofMembers, ← known_nil shape (shape.changed f row), walked]
  apply close_known
  intro column held
  rw [keysOf, (perm.map (·.1)).mem_iff, ← keysOf, Rearranging.keysOf_mapMembers, keysOf_members]
  exact held

end Shape

end Changed

end BlockForge.Json
