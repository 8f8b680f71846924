/-
# Data that goes through a document

Data becomes the entries of a table, these are written, and a reader finds the tree of what was
written. The tree holds the same data again, except that the members of an object are in the order
of their keys and that a whole number of 64 bits is one that could have had a sign. What readers of
typed data make of a value does not depend on either.
-/

import BlockForge.Proofs.Block.Rereading
import BlockForge.Proofs.Toml.Document

namespace BlockForge.Json

/-! ## What a table can hold -/

/-- A number that a table can hold: a whole one has at most 64 bits with a sign. -/
def Number.IsToml : Number → Prop
  | .unsigned n => fitsSigned64 n
  | .signed i => fitsSigned64 i
  | .float _ => True

mutual

/-- A value that a table can hold: there is no null in it. -/
def Value.IsToml : Value → Prop
  | .null => False
  | .number n => n.IsToml
  | .array items => AllToml items
  | .object members => AllTomlMembers members
  | _ => True

def AllToml : List Value → Prop
  | [] => True
  | item :: rest => item.IsToml ∧ AllToml rest

def AllTomlMembers : List (String × Value) → Prop
  | [] => True
  | (_, value) :: rest => value.IsToml ∧ AllTomlMembers rest

end

theorem allToml_iff {items : List Value} : AllToml items ↔ ∀ item ∈ items, item.IsToml := by
  induction items with
  | nil => simp [AllToml]
  | cons item rest ih => rw [AllToml, ih, List.forall_mem_cons]

theorem allTomlMembers_iff {members : List (String × Value)} :
    AllTomlMembers members ↔ ∀ member ∈ members, member.2.IsToml := by
  induction members with
  | nil => simp [AllTomlMembers]
  | cons member rest ih => rw [AllTomlMembers, ih, List.forall_mem_cons]

theorem isToml_ofInt {i : Int} (fits : fitsSigned64 i) : (Value.ofInt i).IsToml := by
  rw [Value.ofInt, Number.ofInt]
  split
  · exact fits
  · rename_i positive
    have same : (i.natAbs : Int) = i := Int.natAbs_of_nonneg (Int.not_lt.mp positive)
    rw [Value.IsToml, Number.IsToml, same]
    exact fits

/-- What typed data is made of is what a table can hold. -/
theorem isToml_nesting : Block.Nesting fun _ v => v.IsToml where
  string _ _ := trivial
  bool _ _ := trivial
  float _ _ := trivial
  integer fits _ := isToml_ofInt fits
  array isToml := allToml_iff.mpr isToml
  object _ isToml := allTomlMembers_iff.mpr isToml
  mono isToml _ := isToml

/-! ## What a table gives back -/

/-- A number as it comes out of a document. -/
def Number.tabled : Number → Number
  | .unsigned n => if fitsSigned64 n then .signed n else .unsigned n
  | other => other

mutual

def Value.tabled : Value → Value
  | .number n => .number n.tabled
  | .array items => .array (tabledItems items)
  | .object members => .object (sortMembers (tabledMembers members))
  | other => other

def tabledItems : List Value → List Value
  | [] => []
  | item :: rest => item.tabled :: tabledItems rest

/-- Members as they come out of a document, still in their own order. -/
def tabledMembers : List (String × Value) → List (String × Value)
  | [] => []
  | (key, value) :: rest => (key, value.tabled) :: tabledMembers rest

end

theorem tabledItems_eq_map (items : List Value) : tabledItems items = items.map Value.tabled := by
  induction items with
  | nil => rfl
  | cons item rest ih => rw [tabledItems, ih, List.map_cons]

theorem tabledMembers_eq_map (members : List (String × Value)) :
    tabledMembers members = mapMembers Value.tabled members := by
  induction members with
  | nil => rfl
  | cons member rest ih =>
      rw [tabledMembers, ih]
      rfl

mutual

theorem Value.depth_tabled_le : (v : Value) → v.tabled.depth ≤ v.depth
  | .null => Nat.le_refl 0
  | .bool _ => Nat.le_refl 0
  | .string _ => Nat.le_refl 0
  | .number _ => Nat.le_refl 0
  | .array items => Nat.succ_le_succ (depth_tabledItems_le items)
  | .object members => by
    apply Nat.succ_le_succ
    rw [depthOfMembers_le_iff]
    intro member held
    exact depthOfMembers_le_iff.mp (depth_tabledMembers_le members) member (mem_sortMembers held)

theorem depth_tabledItems_le : (items : List Value) →
    depthOfItems (tabledItems items) ≤ depthOfItems items
  | [] => Nat.le_refl 0
  | item :: rest => max_le_max item.depth_tabled_le (depth_tabledItems_le rest)

theorem depth_tabledMembers_le : (members : List (String × Value)) →
    depthOfMembers (tabledMembers members) ≤ depthOfMembers members
  | [] => Nat.le_refl 0
  | (_, value) :: rest => max_le_max value.depth_tabled_le (depth_tabledMembers_le rest)

end

/-- Readers of typed data find in a document what was written, every double included. -/
theorem keeping_tabled : Keeping some Value.tabled where
  bool _ := rfl
  string _ := rfl
  integer i := by
    rw [Value.ofInt, Number.ofInt]
    split
    · exact .inl rfl
    · rename_i positive
      have same : (i.natAbs : Int) = i := Int.natAbs_of_nonneg (Int.not_lt.mp positive)
      rw [Value.tabled, Number.tabled, same]
      split
      · exact .inr rfl
      · exact .inl rfl
  float _ := rfl
  array items := by rw [Value.tabled, tabledItems_eq_map]
  object members distinct := by
    refine ⟨sortMembers (tabledMembers members), rfl, ?_⟩
    rw [tabledMembers_eq_map]
    apply sortMembers_perm
    rw [Rearranging.keysOf_mapMembers]
    exact distinct
  depth := Value.depth_tabled_le

end BlockForge.Json

namespace BlockForge.Toml

open BlockForge.Json (Node Items Members keysOf mapMembers sortMembers insertMember)

/-! ## Members in order -/

/-- A key with a tree and the same key with a value that the tree holds. -/
def HoldsUnderKey (member : String × Node) (held : String × Json.Value) : Prop :=
  member.1 = held.1 ∧ member.2.Holds held.2

theorem forall₂_insertMember {members : List (String × Node)} {held : List (String × Json.Value)}
    (hold : List.Forall₂ HoldsUnderKey members held) {node : Node} {v : Json.Value}
    (holds : node.Holds v) (key : String) :
    List.Forall₂ HoldsUnderKey (insertMember key node members) (insertMember key v held) := by
  induction hold with
  | nil => exact .cons ⟨rfl, holds⟩ .nil
  | cons first rest ih =>
      rename_i member other _ _
      obtain ⟨key', node'⟩ := member
      obtain ⟨key'', v'⟩ := other
      obtain ⟨same, holds'⟩ := first
      obtain rfl : key' = key'' := same
      rw [insertMember, insertMember]
      split
      · exact .cons ⟨rfl, holds⟩ (.cons ⟨rfl, holds'⟩ rest)
      · split
        · exact .cons ⟨rfl, holds⟩ rest
        · exact .cons ⟨rfl, holds'⟩ ih

/-- Trees that hold values hold them when both are put in the order of their keys. -/
theorem forall₂_sortMembers {members : List (String × Node)} {held : List (String × Json.Value)}
    (hold : List.Forall₂ HoldsUnderKey members held) :
    List.Forall₂ HoldsUnderKey (sortMembers members) (sortMembers held) := by
  have folds {sorted : List (String × Node)} {others : List (String × Json.Value)}
      (before : List.Forall₂ HoldsUnderKey sorted others) :
      List.Forall₂ HoldsUnderKey (Json.sortInto sorted members) (Json.sortInto others held) := by
    induction hold generalizing sorted others with
    | nil => exact before
    | cons first rest ih =>
        rename_i member other _ _
        obtain ⟨key, node⟩ := member
        obtain ⟨key', v⟩ := other
        obtain ⟨same, holds⟩ := first
        obtain rfl : key = key' := same
        exact ih (forall₂_insertMember before holds key)
  exact folds .nil

theorem hold_membersOfNodes {members : List (String × Node)} {held : List (String × Json.Value)}
    (hold : List.Forall₂ HoldsUnderKey members held) : (membersOfNodes members).Hold held := by
  induction hold with
  | nil => rfl
  | cons first rest ih =>
      rename_i member other _ _
      obtain ⟨key, node⟩ := member
      obtain ⟨key', v⟩ := other
      obtain ⟨same, holds⟩ := first
      obtain rfl : key = key' := same
      exact Members.hold_member holds ih key 0

/-! ## Values that become tables -/

/-- A value that TOML has, nested at most as deep as some levels, and whose tree holds it as it
comes out of a document. -/
def Tables (levels : Nat) (v : Json.Value) : Prop :=
  ∃ t, ofData v = some t ∧ t.Fits levels ∧ t.node.Holds v.tabled

/-- An integer of 64 bits stays one. -/
theorem tables_integer {i : Int} (fits : fitsSigned64 i) (levels : Nat) :
    Tables levels (.ofInt i) := by
  have node : integerNode i = .scalar (.ok (.number (.signed i))) 0 := by
    rw [integerNode, number?, if_pos fits]
  have tables (n : Json.Number) (given : ofData (.number n) = some (.integer i))
      (same : n.tabled = .signed i) : Tables levels (.number n) := by
    refine ⟨.integer i, given, trivial, ?_⟩
    rw [Value.node, node, Json.Value.tabled, same]
    rfl
  rw [Json.Value.ofInt, Json.Number.ofInt]
  split
  · exact tables _ rfl rfl
  · rename_i positive
    have same : (i.natAbs : Int) = i := Int.natAbs_of_nonneg (Int.not_lt.mp positive)
    apply tables
    · rw [ofData, same]
    · rw [Json.Number.tabled, same, if_pos fits]

theorem tables_items {levels : Nat} {items : List Json.Value}
    (tables : ∀ item ∈ items, Tables levels item) :
    ItemsFit levels (itemsOfData items) ∧
      (nodeItems (itemsOfData items)).Hold (Json.tabledItems items) := by
  induction items with
  | nil => exact ⟨trivial, rfl⟩
  | cons item rest ih =>
      obtain ⟨t, given, fits, holds⟩ := tables item List.mem_cons_self
      obtain ⟨othersFit, others⟩ := ih fun other held => tables other (List.mem_cons_of_mem item held)
      rw [itemsOfData, given]
      exact ⟨⟨fits, othersFit⟩, Items.hold_item holds others 0⟩

theorem tables_members {levels : Nat} {members : List (String × Json.Value)}
    (tables : ∀ member ∈ members, Tables levels member.2) :
    keysOf (entriesOfData members) = keysOf members ∧ EntriesFit levels (entriesOfData members) ∧
      List.Forall₂ HoldsUnderKey (nodeEntries (entriesOfData members))
        (Json.tabledMembers members) := by
  induction members with
  | nil => exact ⟨rfl, trivial, .nil⟩
  | cons member rest ih =>
      obtain ⟨key, v⟩ := member
      obtain ⟨t, given, fits, holds⟩ := tables (key, v) List.mem_cons_self
      obtain ⟨keys, othersFit, others⟩ := ih fun other held =>
        tables other (List.mem_cons_of_mem (key, v) held)
      rw [entriesOfData, given]
      exact ⟨congrArg (List.cons key) keys, ⟨fits, othersFit⟩, .cons ⟨rfl, holds⟩ others⟩

/-- Members of distinct keys become a table. -/
theorem tables_object {levels : Nat} {members : List (String × Json.Value)}
    (distinct : (keysOf members).Nodup) (tables : ∀ member ∈ members, Tables levels member.2) :
    Tables (levels + 1) (.object members) := by
  obtain ⟨keys, fits, hold⟩ := tables_members tables
  refine ⟨.table (entriesOfData members), rfl, ⟨Nat.succ_pos levels, by rwa [keys], fits⟩, ?_⟩
  exact Node.holds_object (hold_membersOfNodes (forall₂_sortMembers hold)) 0

/-- What typed data is made of becomes what tables are made of. -/
theorem tables_nesting : Block.Nesting Tables where
  string s _ := ⟨.string s, rfl, trivial, rfl⟩
  bool b _ := ⟨.bool b, rfl, trivial, rfl⟩
  float x _ := ⟨.float x, rfl, trivial, rfl⟩
  integer := tables_integer
  array tables := by
    obtain ⟨fits, hold⟩ := tables_items tables
    exact ⟨.array (itemsOfData _), rfl, ⟨Nat.succ_pos _, fits⟩, Node.holds_array hold 0⟩
  object := tables_object
  mono := by
    rintro less more v ⟨t, given, fits, holds⟩ fewer
    exact ⟨t, given, fits.mono fewer, holds⟩

/-- The document of an object is read as entries whose tree holds the object. -/
theorem exists_readDocument?_documentOf {levels : Nat} {members : List (String × Json.Value)}
    (shallow : levels ≤ greatestDepth) (tables : Tables levels (.object members)) :
    ∃ entries read, ofData (.object members) = some (.table entries) ∧
      documentOf (.object members) = documentChars entries ∧
      readDocument? (documentChars entries) = some read ∧
      (Value.table read).node.Holds (Json.Value.object members).tabled := by
  obtain ⟨t, given, fits, holds⟩ := tables
  obtain rfl : Value.table (entriesOfData members) = t := Option.some.inj given
  have inside := fits.2.2.mono (Nat.le_trans (Nat.sub_le levels 1) shallow)
  obtain ⟨read, found, same⟩ := exists_readDocument?_documentChars fits.2.1 inside
  exact ⟨_, read, rfl, rfl, found, by rw [same]; exact holds⟩

end BlockForge.Toml
