/-
# Values in another order

The members of an object may stand in any order. Two values are the same but for that if their
arrays have the same items in the same order, and their objects the same members in whatever order,
at any depth. The stored form of a value is such a value, provided that no object in it has a key
twice and that its doubles are finite.

Readers that meet the members of an object in another order may meet another fault first, so what
is compared is what they give if they give anything.
-/

import BlockForge.Proofs.Json.Giving
import BlockForge.Proofs.Json.Place
import Mathlib.Data.List.Forall2

namespace BlockForge

/-! ## Actions that give the same -/

section Agrees

variable {α β ε δ : Type}

/-- Two actions give the same, or neither of them gives anything. -/
def Agrees (action : Except ε α) (other : Except δ α) : Prop := ∀ a, action = .ok a ↔ other = .ok a

namespace Agrees

variable {action : Except ε α} {other : Except δ α}

theorem refl (action : Except ε α) : Agrees action action := fun _ => Iff.rfl

theorem errors (fault : ε) (otherFault : δ) :
    Agrees (.error fault : Except ε α) (.error otherFault : Except δ α) :=
  fun _ => ⟨nofun, nofun⟩

theorem symm (agrees : Agrees action other) : Agrees other action := fun a => (agrees a).symm

theorem trans {ζ : Type} {third : Except ζ α} (agrees : Agrees action other)
    (further : Agrees other third) : Agrees action third :=
  fun a => (agrees a).trans (further a)

/-- Whatever one action gives, the other gives something that leads to the same. -/
theorem bind_related {γ ζ : Type} (related : α → γ → Prop) {action : Except ε α}
    {other : Except δ γ} {next : α → Except ε ζ} {further : γ → Except δ ζ}
    (forth : ∀ a, action = .ok a → ∃ c, other = .ok c ∧ related a c)
    (back : ∀ c, other = .ok c → ∃ a, action = .ok a ∧ related a c)
    (onward : ∀ a c, related a c → Agrees (next a) (further c)) :
    Agrees (action >>= next) (other >>= further) := by
  intro b
  constructor
  · intro bound
    obtain ⟨a, given, last⟩ := Json.bind_eq_ok bound
    obtain ⟨c, same, alike⟩ := forth a given
    rw [same]
    exact (onward a c alike b).mp last
  · intro bound
    obtain ⟨c, given, last⟩ := Json.bind_eq_ok bound
    obtain ⟨a, same, alike⟩ := back c given
    rw [same]
    exact (onward a c alike b).mpr last

theorem bind {next : α → Except ε β} {further : α → Except δ β} (agrees : Agrees action other)
    (onward : ∀ a, Agrees (next a) (further a)) : Agrees (action >>= next) (other >>= further) := by
  refine bind_related Eq (fun a given => ⟨a, (agrees a).mp given, rfl⟩)
    (fun a given => ⟨a, (agrees a).mpr given, rfl⟩) ?_
  rintro a _ rfl
  exact onward a

theorem map (agrees : Agrees action other) (f : α → β) :
    Agrees (action.map f) (other.map f) := by
  intro b
  constructor
  · intro mapped
    obtain ⟨a, given, rfl⟩ := Json.map_eq_ok mapped
    rw [(agrees a).mp given]
    rfl
  · intro mapped
    obtain ⟨a, given, rfl⟩ := Json.map_eq_ok mapped
    rw [(agrees a).mpr given]
    rfl

theorem map_bind {γ ζ : Type} {given : α → β} {taken : α → γ} {next : β → Except ε ζ}
    {further : γ → Except δ ζ} (agrees : Agrees action other)
    (onward : ∀ a, Agrees (next (given a)) (further (taken a))) :
    Agrees (action.map given >>= next) (other.map taken >>= further) := by
  have inside {ι : Type} {η : Type} (action : Except ι α) (f : α → η) (next : η → Except ι ζ) :
      (action.map f >>= next) = (action >>= fun a => next (f a)) := by
    cases action <;> rfl
  rw [inside, inside]
  exact agrees.bind onward

end Agrees

end Agrees

namespace Json

/-! ## Members in another order -/

mutual

/-- A value, and one in which the members of any objects stand in another order. -/
def Value.Reordered : Value → Value → Prop
  | .array items, .array others => ReorderedItems items others
  | .object members, .object others =>
    ∃ moved, ReorderedValues members moved ∧ moved.Perm others
  | v, w => v = w

def ReorderedItems : List Value → List Value → Prop
  | [], [] => True
  | item :: rest, other :: others => item.Reordered other ∧ ReorderedItems rest others
  | _, _ => False

/-- Members, and others in the same places in whose values members stand in another order. -/
def ReorderedValues : List (String × Value) → List (String × Value) → Prop
  | [], [] => True
  | (key, v) :: rest, (name, w) :: others =>
    key = name ∧ v.Reordered w ∧ ReorderedValues rest others
  | _, _ => False

end

/-- A member, and one of the same key in whose value members stand in another order. -/
def ReorderedMember (member other : String × Value) : Prop :=
  member.1 = other.1 ∧ member.2.Reordered other.2

/-- Members, and the same ones in another order, in their values as well. -/
def ReorderedMembers (members others : List (String × Value)) : Prop :=
  ∃ moved, List.Forall₂ ReorderedMember members moved ∧ moved.Perm others

variable {v w : Value} {items : List Value} {members others : List (String × Value)}

theorem reorderedItems_iff {others : List Value} :
    ReorderedItems items others ↔ List.Forall₂ Value.Reordered items others := by
  induction items generalizing others with
  | nil => cases others <;> simp [ReorderedItems]
  | cons item rest ih => cases others <;> simp [ReorderedItems, ih]

theorem reorderedValues_iff :
    ReorderedValues members others ↔ List.Forall₂ ReorderedMember members others := by
  induction members generalizing others with
  | nil => cases others <;> simp [ReorderedValues]
  | cons member rest ih => cases others <;> simp [ReorderedValues, ReorderedMember, ih, and_assoc]

theorem Value.Reordered.array (reordered : (Value.array items).Reordered w) :
    ∃ others, w = .array others ∧ List.Forall₂ Value.Reordered items others := by
  cases w with
  | array others => exact ⟨others, rfl, reorderedItems_iff.mp reordered⟩
  | _ => cases reordered

theorem Value.Reordered.object (reordered : (Value.object members).Reordered w) :
    ∃ others, w = .object others ∧ ReorderedMembers members others := by
  cases w with
  | object others =>
      obtain ⟨moved, pointwise, perm⟩ := reordered
      exact ⟨others, rfl, moved, reorderedValues_iff.mp pointwise, perm⟩
  | _ => cases reordered

theorem Value.reordered_array {others : List Value}
    (reordered : List.Forall₂ Value.Reordered items others) :
    (Value.array items).Reordered (.array others) :=
  reorderedItems_iff.mpr reordered

theorem Value.reordered_object (reordered : ReorderedMembers members others) :
    (Value.object members).Reordered (.object others) := by
  obtain ⟨moved, pointwise, perm⟩ := reordered
  exact ⟨moved, reorderedValues_iff.mpr pointwise, perm⟩

theorem ReorderedMembers.length_eq (reordered : ReorderedMembers members others) :
    members.length = others.length := by
  obtain ⟨moved, pointwise, perm⟩ := reordered
  exact pointwise.length_eq.trans perm.length_eq

theorem ReorderedMembers.eq_nil (reordered : ReorderedMembers [] others) : others = [] :=
  List.length_eq_zero_iff.mp reordered.length_eq.symm

theorem ReorderedMembers.eq_singleton {key : String}
    (reordered : ReorderedMembers [(key, v)] others) :
    ∃ w, others = [(key, w)] ∧ v.Reordered w := by
  obtain ⟨moved, pointwise, perm⟩ := reordered
  obtain ⟨⟨name, w⟩, _, same, later, rfl⟩ := List.forall₂_cons_left_iff.mp pointwise
  obtain rfl := List.forall₂_nil_left_iff.mp later
  obtain ⟨rfl, inside⟩ := same
  exact ⟨w, List.perm_singleton.mp perm.symm, inside⟩

/-- A value without parts stays. -/
theorem Value.Reordered.scalar {s : Scalar} (reordered : s.value.Reordered w) : w = s.value := by
  cases s <;> cases w <;> exact reordered.symm

theorem ReorderedMembers.filter (reordered : ReorderedMembers members others)
    (keep : String → Bool) :
    ReorderedMembers (members.filter (keep ·.1)) (others.filter (keep ·.1)) := by
  obtain ⟨moved, pointwise, perm⟩ := reordered
  refine ⟨moved.filter (keep ·.1), ?_, perm.filter _⟩
  exact List.rel_filter (fun _ _ same => iff_of_eq (congrArg (keep · = true) same.1)) pointwise

mutual

theorem Value.Reordered.refl : (v : Value) → v.Reordered v
  | .null => rfl
  | .bool _ => rfl
  | .number _ => rfl
  | .string _ => rfl
  | .array items => reorderedItems_refl items
  | .object members => ⟨members, reorderedValues_refl members, List.Perm.refl members⟩

theorem reorderedItems_refl : (items : List Value) → ReorderedItems items items
  | [] => trivial
  | item :: rest => ⟨Value.Reordered.refl item, reorderedItems_refl rest⟩

theorem reorderedValues_refl : (members : List (String × Value)) → ReorderedValues members members
  | [] => trivial
  | (_, v) :: rest => ⟨rfl, Value.Reordered.refl v, reorderedValues_refl rest⟩

end

mutual

/-- The stored form of a value is the value with its members in the order of their keys. -/
theorem Value.reordered_canonical : (v : Value) → v.Distinct → v.IsJson → v.Reordered v.canonical
  | .null, _, _ => rfl
  | .bool _, _, _ => rfl
  | .string _, _, _ => rfl
  | .number (.unsigned _), _, _ => rfl
  | .number (.signed _), _, _ => rfl
  | .number (.float x), _, finite => by
    have kept : Value.canonical (.number (.float x)) = .number (.float x) := if_pos finite
    rw [kept]
    exact Value.Reordered.refl _
  | .array items, distinct, json => reorderedItems_canonical items distinct json
  | .object members, ⟨keys, inside⟩, json => by
    refine ⟨canonicalMembers members, reorderedValues_canonical members inside json, ?_⟩
    refine (sortMembers_perm ?_).symm
    rw [canonicalMembers_eq_map, Rearranging.keysOf_mapMembers]
    exact keys

theorem reorderedItems_canonical : (items : List Value) → DistinctItems items →
    EachItem Number.IsJson items → ReorderedItems items (canonicalItems items)
  | [], _, _ => trivial
  | item :: rest, distinct, json =>
    ⟨item.reordered_canonical distinct.1 json.1, reorderedItems_canonical rest distinct.2 json.2⟩

theorem reorderedValues_canonical : (members : List (String × Value)) → DistinctMembers members →
    EachMember Number.IsJson members → ReorderedValues members (canonicalMembers members)
  | [], _, _ => trivial
  | (_, v) :: rest, distinct, json =>
    ⟨rfl, v.reordered_canonical distinct.1 json.1,
      reorderedValues_canonical rest distinct.2 json.2⟩

end

end Json

end BlockForge
