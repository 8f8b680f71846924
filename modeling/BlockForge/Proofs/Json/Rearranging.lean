/-
# Values that were stored, written or read

A value changes a little while it is kept: its stored form has the keys of every object in order,
and its text gives its doubles back as what their digits are taken for. What all these changes
have in common is stated once. Strings, truth values and whole numbers stay, arrays keep their
items in order, and an object keeps its members in whatever order. Every finite double is replaced
by another finite one, and null stands for the others. Changes of this kind can be made one after
the other, so readers need to be followed through one such value only.

Readers see through more than that: whichever doubles are left out, and in whichever of its forms a
whole number stands.
-/

import BlockForge.Json.Lexeme
import BlockForge.Proofs.Decimal.Rereading
import BlockForge.Proofs.Json.Members
import Mathlib.Data.List.Perm.Basic
import Mathlib.Logic.Function.Iterate

namespace BlockForge.Json

variable {α : Type}

/-! ## Numbers and levels of values -/

/-- A whole number of 64 bits, without a sign unless it is negative. -/
def Number.InRange : Number → Prop
  | .unsigned n => n ≤ greatestUnsigned64
  | .signed i => i < 0 ∧ fitsSigned64 i
  | .float _ => True

/-- A number that JSON has. -/
def Number.IsJson : Number → Prop
  | .unsigned n => n ≤ greatestUnsigned64
  | .signed i => i < 0 ∧ fitsSigned64 i
  | .float x => x.isFinite

mutual

/-- Every number of a value has a property. -/
def Value.Each (p : Number → Prop) : Value → Prop
  | .number n => p n
  | .array items => EachItem p items
  | .object members => EachMember p members
  | _ => True

def EachItem (p : Number → Prop) : List Value → Prop
  | [] => True
  | item :: rest => item.Each p ∧ EachItem p rest

def EachMember (p : Number → Prop) : List (String × Value) → Prop
  | [] => True
  | (_, value) :: rest => value.Each p ∧ EachMember p rest

end

/-- Every whole number of a value is one of 64 bits. -/
abbrev Value.InRange (v : Value) : Prop := v.Each Number.InRange

/-- Every number of a value is one that JSON has. -/
abbrev Value.IsJson (v : Value) : Prop := v.Each Number.IsJson

mutual

/-- How many arrays and objects are nested in a value. -/
def Value.depth : Value → Nat
  | .array items => depthOfItems items + 1
  | .object members => depthOfMembers members + 1
  | _ => 0

def depthOfItems : List Value → Nat
  | [] => 0
  | item :: rest => max item.depth (depthOfItems rest)

def depthOfMembers : List (String × Value) → Nat
  | [] => 0
  | (_, value) :: rest => max value.depth (depthOfMembers rest)

end

theorem eachItem_iff {p : Number → Prop} {items : List Value} :
    EachItem p items ↔ ∀ item ∈ items, item.Each p := by
  induction items with
  | nil => simp [EachItem]
  | cons item rest ih => rw [EachItem, ih, List.forall_mem_cons]

theorem eachMember_iff {p : Number → Prop} {members : List (String × Value)} :
    EachMember p members ↔ ∀ member ∈ members, member.2.Each p := by
  induction members with
  | nil => simp [EachMember]
  | cons member rest ih => rw [EachMember, ih, List.forall_mem_cons]

theorem depthOfItems_le_iff {items : List Value} {bound : Nat} :
    depthOfItems items ≤ bound ↔ ∀ item ∈ items, item.depth ≤ bound := by
  induction items with
  | nil => simp [depthOfItems]
  | cons item rest ih => rw [depthOfItems, Nat.max_le, ih, List.forall_mem_cons]

theorem depthOfMembers_le_iff {members : List (String × Value)} {bound : Nat} :
    depthOfMembers members ≤ bound ↔ ∀ member ∈ members, member.2.depth ≤ bound := by
  induction members with
  | nil => simp [depthOfMembers]
  | cons member rest ih => rw [depthOfMembers, Nat.max_le, ih, List.forall_mem_cons]

/-! ## Changes that only rearrange -/

abbrev keysOf (members : List (String × α)) : List String := members.map (·.1)

abbrev mapMembers (f : Value → Value) (members : List (String × Value)) : List (String × Value) :=
  members.map fun member => (member.1, f member.2)

/-- A change that rearranges the members of objects and replaces doubles, and does no more. -/
structure Rearranging (g : Binary64 → Binary64) (f : Value → Value) : Prop where
  finite : ∀ x, (g x).isFinite = x.isFinite
  null : f .null = .null
  bool : ∀ b, f (.bool b) = .bool b
  string : ∀ s, f (.string s) = .string s
  unsigned : ∀ n, f (.number (.unsigned n)) = .number (.unsigned n)
  signed : ∀ i, f (.number (.signed i)) = .number (.signed i)
  float : ∀ x, f (.ofFloat x) = if x.isFinite then .ofFloat (g x) else .null
  array : ∀ items, f (.array items) = .array (items.map f)
  object : ∀ members, (keysOf members).Nodup →
    ∃ arranged, f (.object members) = .object arranged ∧ arranged.Perm (mapMembers f members)
  inRange : ∀ v, v.InRange → (f v).InRange
  depth : ∀ v, (f v).depth ≤ v.depth

namespace Rearranging

variable {g h : Binary64 → Binary64} {f e : Value → Value}

theorem keysOf_mapMembers (f : Value → Value) (members : List (String × Value)) :
    keysOf (mapMembers f members) = keysOf members := by
  simp [keysOf, mapMembers]

theorem distinct_of_perm {members others : List (String × Value)}
    (perm : members.Perm (mapMembers f others)) (distinct : (keysOf others).Nodup) :
    (keysOf members).Nodup := by
  rw [keysOf, (perm.map (·.1)).nodup_iff, ← keysOf, keysOf_mapMembers]
  exact distinct

/-- One change after another. -/
theorem comp (second : Rearranging h e) (first : Rearranging g f) : Rearranging (h ∘ g) (e ∘ f) where
  finite x := by
    rw [Function.comp_apply, second.finite, first.finite]
  null := by rw [Function.comp_apply, first.null, second.null]
  bool b := by rw [Function.comp_apply, first.bool, second.bool]
  string s := by rw [Function.comp_apply, first.string, second.string]
  unsigned n := by rw [Function.comp_apply, first.unsigned, second.unsigned]
  signed i := by rw [Function.comp_apply, first.signed, second.signed]
  float x := by
    rw [Function.comp_apply, first.float]
    split
    · rename_i finite
      rw [second.float, if_pos ((first.finite x).trans finite)]
      rfl
    · exact second.null
  array items := by
    rw [Function.comp_apply, first.array, second.array, List.map_map]
  object members distinct := by
    obtain ⟨once, changed, perm⟩ := first.object members distinct
    have stillDistinct := distinct_of_perm perm distinct
    obtain ⟨twice, changedAgain, permAgain⟩ := second.object once stillDistinct
    refine ⟨twice, ?_, permAgain.trans ?_⟩
    · rw [Function.comp_apply, changed, changedAgain]
    · have mapped := perm.map fun member : String × Value => (member.1, e member.2)
      rw [List.map_map] at mapped
      exact mapped
  inRange v inRange := second.inRange _ (first.inRange v inRange)
  depth v := Nat.le_trans (second.depth _) (first.depth v)

end Rearranging

/-- A finite double is replaced by another one, and the others are left out. -/
def finiteOnly (g : Binary64 → Binary64) (x : Binary64) : Option Binary64 :=
  if x.isFinite then some (g x) else none

/-- A change that readers of typed data see through. Null stands for the doubles that are left
out, and a whole number may be written as one that could have had a sign. -/
structure Keeping (h : Binary64 → Option Binary64) (f : Value → Value) : Prop where
  bool : ∀ b, f (.bool b) = .bool b
  string : ∀ s, f (.string s) = .string s
  integer : ∀ i, f (.ofInt i) = .ofInt i ∨ f (.ofInt i) = .number (.signed i)
  float : ∀ x, f (.ofFloat x) = ((h x).map Value.ofFloat).getD .null
  array : ∀ items, f (.array items) = .array (items.map f)
  object : ∀ members, (keysOf members).Nodup →
    ∃ arranged, f (.object members) = .object arranged ∧ arranged.Perm (mapMembers f members)
  depth : ∀ v, (f v).depth ≤ v.depth

theorem Rearranging.keeping {g : Binary64 → Binary64} {f : Value → Value}
    (rearranging : Rearranging g f) : Keeping (finiteOnly g) f where
  bool := rearranging.bool
  string := rearranging.string
  integer i := by
    rw [Value.ofInt, Number.ofInt]
    split
    · exact .inl (rearranging.signed i)
    · exact .inl (rearranging.unsigned i.natAbs)
  float x := by
    rw [rearranging.float, finiteOnly]
    split <;> rfl
  array := rearranging.array
  object := rearranging.object
  depth := rearranging.depth

/-! ## Stored forms -/

theorem insertMember_perm {key : String} {members : List (String × α)}
    (absent : key ∉ keysOf members) (value : α) :
    (insertMember key value members).Perm ((key, value) :: members) := by
  induction members with
  | nil => exact List.Perm.refl _
  | cons first rest ih =>
      obtain ⟨other, held⟩ := first
      rw [keysOf, List.map_cons, List.mem_cons, not_or] at absent
      rw [insertMember]
      split
      · exact List.Perm.refl _
      · rw [if_neg absent.1]
        exact ((ih absent.2).cons _).trans (List.Perm.swap _ _ _)

/-- Members put into order one after the other, beside those that are in order already. -/
def sortInto (sorted members : List (String × α)) : List (String × α) :=
  members.foldl (fun sorted member => insertMember member.1 member.2 sorted) sorted

theorem sortMembers_eq_sortInto (members : List (String × α)) :
    sortMembers members = sortInto [] members :=
  rfl

theorem sortInto_perm {members sorted : List (String × α)}
    (distinct : (keysOf (members.reverse ++ sorted)).Nodup) :
    (sortInto sorted members).Perm (members.reverse ++ sorted) := by
  induction members generalizing sorted with
  | nil => exact List.Perm.refl _
  | cons first rest ih =>
      have split : (first :: rest).reverse ++ sorted = rest.reverse ++ first :: sorted := by simp
      rw [split] at distinct ⊢
      have absent : first.1 ∉ keysOf sorted := by
        rw [keysOf, List.map_append, List.nodup_append] at distinct
        exact (List.nodup_cons.mp distinct.2.1).1
      have moved := (insertMember_perm absent first.2).append_left rest.reverse
      refine (ih ?_).trans moved
      rw [keysOf, (moved.map (·.1)).nodup_iff]
      exact distinct

/-- Members of distinct keys are only put into another order. -/
theorem sortMembers_perm {members : List (String × α)} (distinct : (keysOf members).Nodup) :
    (sortMembers members).Perm members := by
  have reversed : (members.reverse ++ []).Perm members := by
    rw [List.append_nil]
    exact members.reverse_perm
  rw [sortMembers_eq_sortInto]
  refine (sortInto_perm ?_).trans reversed
  rw [keysOf, (reversed.map (·.1)).nodup_iff]
  exact distinct

theorem mem_sortInto {member : String × α} {members sorted : List (String × α)}
    (held : member ∈ sortInto sorted members) : member ∈ members ∨ member ∈ sorted := by
  induction members generalizing sorted with
  | nil => exact .inr held
  | cons first rest ih =>
      rcases ih held with later | inserted
      · exact .inl (List.mem_cons_of_mem first later)
      · rcases mem_insertMember inserted with rfl | before
        · exact .inl List.mem_cons_self
        · exact .inr before

theorem mem_sortMembers {member : String × α} {members : List (String × α)}
    (held : member ∈ sortMembers members) : member ∈ members := by
  rw [sortMembers_eq_sortInto] at held
  rcases mem_sortInto held with among | none
  · exact among
  · cases none

theorem canonicalItems_eq_map (items : List Value) :
    canonicalItems items = items.map Value.canonical := by
  induction items with
  | nil => rfl
  | cons item rest ih => rw [canonicalItems, ih, List.map_cons]

theorem canonicalMembers_eq_map (members : List (String × Value)) :
    canonicalMembers members = mapMembers Value.canonical members := by
  induction members with
  | nil => rfl
  | cons member rest ih =>
      rw [canonicalMembers, ih]
      rfl

mutual

theorem Value.each_canonical {p : Number → Prop} : (v : Value) → v.Each p → v.canonical.Each p
  | .null, _ => trivial
  | .bool _, _ => trivial
  | .string _, _ => trivial
  | .number (.unsigned _), each => each
  | .number (.signed _), each => each
  | .number (.float x), each => by
    rw [Value.canonical]
    split
    · exact each
    · trivial
  | .array items, each => each_canonicalItems items each
  | .object members, each => by
    show EachMember p (sortMembers (canonicalMembers members))
    rw [eachMember_iff]
    intro member held
    exact eachMember_iff.mp (each_canonicalMembers members each) member (mem_sortMembers held)

theorem each_canonicalItems {p : Number → Prop} : (items : List Value) → EachItem p items →
    EachItem p (canonicalItems items)
  | [], _ => trivial
  | item :: rest, each => ⟨item.each_canonical each.1, each_canonicalItems rest each.2⟩

theorem each_canonicalMembers {p : Number → Prop} : (members : List (String × Value)) →
    EachMember p members → EachMember p (canonicalMembers members)
  | [], _ => trivial
  | (_, value) :: rest, each => ⟨value.each_canonical each.1, each_canonicalMembers rest each.2⟩

end

mutual

theorem Value.depth_canonical_le : (v : Value) → v.canonical.depth ≤ v.depth
  | .null => Nat.le_refl 0
  | .bool _ => Nat.le_refl 0
  | .string _ => Nat.le_refl 0
  | .number (.unsigned _) => Nat.le_refl 0
  | .number (.signed _) => Nat.le_refl 0
  | .number (.float x) => by
    rw [Value.canonical]
    split <;> exact Nat.le_refl 0
  | .array items => Nat.succ_le_succ (depth_canonicalItems_le items)
  | .object members => by
    apply Nat.succ_le_succ
    rw [depthOfMembers_le_iff]
    intro member held
    exact depthOfMembers_le_iff.mp (depth_canonicalMembers_le members) member (mem_sortMembers held)

theorem depth_canonicalItems_le : (items : List Value) →
    depthOfItems (canonicalItems items) ≤ depthOfItems items
  | [] => Nat.le_refl 0
  | item :: rest => max_le_max item.depth_canonical_le (depth_canonicalItems_le rest)

theorem depth_canonicalMembers_le : (members : List (String × Value)) →
    depthOfMembers (canonicalMembers members) ≤ depthOfMembers members
  | [] => Nat.le_refl 0
  | (_, value) :: rest => max_le_max value.depth_canonical_le (depth_canonicalMembers_le rest)

end

/-- The stored form of a value keeps its finite doubles. -/
theorem rearranging_canonical : Rearranging id Value.canonical where
  finite _ := rfl
  null := rfl
  bool _ := rfl
  string _ := rfl
  unsigned _ := rfl
  signed _ := rfl
  float x := by rw [Value.ofFloat, Value.canonical, id]; rfl
  array items := by rw [Value.canonical, canonicalItems_eq_map]
  object members distinct := by
    refine ⟨sortMembers (canonicalMembers members), rfl, ?_⟩
    rw [canonicalMembers_eq_map]
    apply sortMembers_perm
    rw [Rearranging.keysOf_mapMembers]
    exact distinct
  inRange v := v.each_canonical
  depth := Value.depth_canonical_le

/-! ## Values with other doubles -/

mutual

/-- A value with every finite double replaced and null for the others. -/
def Value.withFloats (g : Binary64 → Binary64) : Value → Value
  | .number (.float x) => if x.isFinite then .ofFloat (g x) else .null
  | .array items => .array (itemsWithFloats g items)
  | .object members => .object (membersWithFloats g members)
  | other => other

def itemsWithFloats (g : Binary64 → Binary64) : List Value → List Value
  | [] => []
  | item :: rest => item.withFloats g :: itemsWithFloats g rest

def membersWithFloats (g : Binary64 → Binary64) : List (String × Value) → List (String × Value)
  | [] => []
  | (key, value) :: rest => (key, value.withFloats g) :: membersWithFloats g rest

end

theorem itemsWithFloats_eq_map (g : Binary64 → Binary64) (items : List Value) :
    itemsWithFloats g items = items.map (Value.withFloats g) := by
  induction items with
  | nil => rfl
  | cons item rest ih => rw [itemsWithFloats, ih, List.map_cons]

theorem membersWithFloats_eq_map (g : Binary64 → Binary64) (members : List (String × Value)) :
    membersWithFloats g members = mapMembers (Value.withFloats g) members := by
  induction members with
  | nil => rfl
  | cons member rest ih =>
      rw [membersWithFloats, ih]
      rfl

section Floats

variable (g : Binary64 → Binary64)

mutual

theorem Value.inRange_withFloats : (v : Value) → v.InRange → (v.withFloats g).InRange
  | .null, _ => trivial
  | .bool _, _ => trivial
  | .string _, _ => trivial
  | .number (.unsigned _), inRange => inRange
  | .number (.signed _), inRange => inRange
  | .number (.float x), _ => by
    rw [Value.withFloats]
    split <;> trivial
  | .array items, inRange => inRange_itemsWithFloats items inRange
  | .object members, inRange => inRange_membersWithFloats members inRange

theorem inRange_itemsWithFloats : (items : List Value) → EachItem Number.InRange items →
    EachItem Number.InRange (itemsWithFloats g items)
  | [], _ => trivial
  | item :: rest, inRange =>
    ⟨item.inRange_withFloats inRange.1, inRange_itemsWithFloats rest inRange.2⟩

theorem inRange_membersWithFloats : (members : List (String × Value)) →
    EachMember Number.InRange members → EachMember Number.InRange (membersWithFloats g members)
  | [], _ => trivial
  | (_, value) :: rest, inRange =>
    ⟨value.inRange_withFloats inRange.1, inRange_membersWithFloats rest inRange.2⟩

end

mutual

theorem Value.depth_withFloats : (v : Value) → (v.withFloats g).depth = v.depth
  | .null => rfl
  | .bool _ => rfl
  | .string _ => rfl
  | .number (.unsigned _) => rfl
  | .number (.signed _) => rfl
  | .number (.float x) => by
    rw [Value.withFloats]
    split <;> rfl
  | .array items => congrArg (· + 1) (depth_itemsWithFloats items)
  | .object members => congrArg (· + 1) (depth_membersWithFloats members)

theorem depth_itemsWithFloats : (items : List Value) →
    depthOfItems (itemsWithFloats g items) = depthOfItems items
  | [] => rfl
  | item :: rest => congrArg₂ max item.depth_withFloats (depth_itemsWithFloats rest)

theorem depth_membersWithFloats : (members : List (String × Value)) →
    depthOfMembers (membersWithFloats g members) = depthOfMembers members
  | [] => rfl
  | (_, value) :: rest => congrArg₂ max value.depth_withFloats (depth_membersWithFloats rest)

end

variable {g}

theorem rearranging_withFloats (finite : ∀ x, (g x).isFinite = x.isFinite) :
    Rearranging g (Value.withFloats g) where
  finite := finite
  null := rfl
  bool _ := rfl
  string _ := rfl
  unsigned _ := rfl
  signed _ := rfl
  float _ := rfl
  array items := by rw [Value.withFloats, itemsWithFloats_eq_map]
  object members _ :=
    ⟨membersWithFloats g members, rfl, by rw [membersWithFloats_eq_map]⟩
  inRange := Value.inRange_withFloats g
  depth v := Nat.le_of_eq (v.depth_withFloats g)

end Floats

/-- What a value is after it has been written and read. -/
def Value.reread (v : Value) : Value := v.withFloats Binary64.reread

theorem rearranging_reread : Rearranging Binary64.reread Value.reread :=
  rearranging_withFloats Binary64.isFinite_reread

end BlockForge.Json
