/-
# Places in a value

A value stands at a place in a document, which is told by the keys and positions that lead to it.
The places of a value are listed in the order of the document, every value before what is inside
it. No place is listed twice where no object has two members of one key; a place then leads to the
value that stands there, which is not moved where the members of an object are sorted.
-/

import BlockForge.Block.Issue
import BlockForge.Proofs.Json.Rearranging
import Mathlib.Data.List.Nodup

namespace BlockForge.Json

/-! ## Objects without repeated keys -/

mutual

/-- No object in a value has two members of one key. -/
def Value.Distinct : Value → Prop
  | .array items => DistinctItems items
  | .object members => (keysOf members).Nodup ∧ DistinctMembers members
  | _ => True

def DistinctItems : List Value → Prop
  | [] => True
  | item :: rest => item.Distinct ∧ DistinctItems rest

/-- No object in the values of some members has two members of one key. -/
def DistinctMembers : List (String × Value) → Prop
  | [] => True
  | (_, value) :: rest => value.Distinct ∧ DistinctMembers rest

end

theorem distinctItems_iff {items : List Value} :
    DistinctItems items ↔ ∀ item ∈ items, item.Distinct := by
  induction items with
  | nil => simp [DistinctItems]
  | cons item rest ih => rw [DistinctItems, ih, List.forall_mem_cons]

theorem distinctMembers_iff {members : List (String × Value)} :
    DistinctMembers members ↔ ∀ member ∈ members, member.2.Distinct := by
  induction members with
  | nil => simp [DistinctMembers]
  | cons member rest ih => rw [DistinctMembers, ih, List.forall_mem_cons]

theorem Value.distinct_array {items : List Value} :
    (Value.array items).Distinct ↔ ∀ item ∈ items, item.Distinct := by
  rw [Value.Distinct, distinctItems_iff]

theorem Value.distinct_object {members : List (String × Value)} :
    (Value.object members).Distinct ↔
      (keysOf members).Nodup ∧ ∀ member ∈ members, member.2.Distinct := by
  rw [Value.Distinct, distinctMembers_iff]

/-! ## Places -/

mutual

/-- The places of a value and of everything inside it. -/
def Value.places : Value → List (List Segment)
  | .array items => [] :: placesOfItems 0 items
  | .object members => [] :: placesOfMembers members
  | _ => [[]]

def placesOfItems (position : Nat) : List Value → List (List Segment)
  | [] => []
  | item :: rest => item.places.map (.index position :: ·) ++ placesOfItems (position + 1) rest

def placesOfMembers : List (String × Value) → List (List Segment)
  | [] => []
  | (key, value) :: rest => value.places.map (.key key :: ·) ++ placesOfMembers rest

end

variable {members : List (String × Value)} {place : List Segment} {position : Nat}

theorem placesOfMembers_append (front back : List (String × Value)) :
    placesOfMembers (front ++ back) = placesOfMembers front ++ placesOfMembers back := by
  induction front with
  | nil => rfl
  | cons member rest ih =>
      rw [List.cons_append, placesOfMembers, placesOfMembers, ih, List.append_assoc]

/-- The places in an object start with one of its keys. -/
theorem exists_key_of_mem_placesOfMembers (held : place ∈ placesOfMembers members) :
    ∃ key ∈ keysOf members, ∃ inner, place = .key key :: inner := by
  induction members with
  | nil => cases held
  | cons member rest ih =>
      rcases List.mem_append.mp held with own | later
      · obtain ⟨inner, -, rfl⟩ := List.mem_map.mp own
        exact ⟨member.1, List.mem_cons_self, inner, rfl⟩
      · obtain ⟨key, among, inner, same⟩ := ih later
        exact ⟨key, List.mem_cons_of_mem _ among, inner, same⟩

/-- The places in an array start with the position of one of its items. -/
theorem exists_index_of_mem_placesOfItems {items : List Value}
    (held : place ∈ placesOfItems position items) :
    ∃ later, position ≤ later ∧ ∃ inner, place = .index later :: inner := by
  induction items generalizing position with
  | nil => cases held
  | cons item rest ih =>
      rcases List.mem_append.mp held with own | behind
      · obtain ⟨inner, -, rfl⟩ := List.mem_map.mp own
        exact ⟨position, Nat.le_refl _, inner, rfl⟩
      · obtain ⟨later, after, inner, same⟩ := ih behind
        exact ⟨later, Nat.le_of_succ_le after, inner, same⟩

theorem nodup_under (step : Segment) {places : List (List Segment)} (distinct : places.Nodup) :
    (places.map (step :: ·)).Nodup :=
  distinct.map fun _ _ same => (List.cons.inj same).2

mutual

/-- A value has no place twice if no object in it has a key twice. -/
theorem Value.nodup_places : (v : Value) → v.Distinct → v.places.Nodup
  | .null, _ => List.nodup_singleton []
  | .bool _, _ => List.nodup_singleton []
  | .number _, _ => List.nodup_singleton []
  | .string _, _ => List.nodup_singleton []
  | .array items, distinct => by
    refine List.nodup_cons.mpr ⟨fun held => ?_, nodup_placesOfItems items 0 distinct⟩
    obtain ⟨_, -, _, same⟩ := exists_index_of_mem_placesOfItems held
    cases same
  | .object members, ⟨keys, inside⟩ => by
    refine List.nodup_cons.mpr ⟨fun held => ?_, nodup_placesOfMembers members keys inside⟩
    obtain ⟨_, -, _, same⟩ := exists_key_of_mem_placesOfMembers held
    cases same

theorem nodup_placesOfItems : (items : List Value) → (position : Nat) → DistinctItems items →
    (placesOfItems position items).Nodup
  | [], _, _ => List.nodup_nil
  | item :: rest, position, ⟨here, later⟩ => by
    refine List.nodup_append.mpr ⟨nodup_under _ (item.nodup_places here),
      nodup_placesOfItems rest (position + 1) later, ?_⟩
    rintro _ own _ behind rfl
    obtain ⟨inner, -, rfl⟩ := List.mem_map.mp own
    obtain ⟨next, after, _, same⟩ := exists_index_of_mem_placesOfItems behind
    cases same
    exact absurd after (Nat.not_succ_le_self position)

theorem nodup_placesOfMembers : (members : List (String × Value)) → (keysOf members).Nodup →
    DistinctMembers members → (placesOfMembers members).Nodup
  | [], _, _ => List.nodup_nil
  | (key, v) :: rest, keys, ⟨here, later⟩ => by
    obtain ⟨fresh, others⟩ := List.nodup_cons.mp keys
    refine List.nodup_append.mpr ⟨nodup_under _ (v.nodup_places here),
      nodup_placesOfMembers rest others later, ?_⟩
    rintro _ own _ behind rfl
    obtain ⟨inner, -, rfl⟩ := List.mem_map.mp own
    obtain ⟨other, among, _, same⟩ := exists_key_of_mem_placesOfMembers behind
    cases same
    exact fresh among

end

/-! ## What stands at a place -/

/-- What a step leads to: a key leads into an object and a position into an array. -/
def Value.step? : Value → Segment → Option Value
  | .object members, .key name => (Value.object members).get? name
  | .array items, .index position => items[position]?
  | _, _ => none

/-- What the steps of a path lead to, one after the other. -/
def Value.follow? (v : Value) : List Segment → Option Value
  | [] => some v
  | step :: rest => (v.step? step).bind (·.follow? rest)

theorem lastMember?_of_mem {key : String} {v : Value} (distinct : (keysOf members).Nodup)
    (held : (key, v) ∈ members) : lastMember? members key = some v := by
  induction members with
  | nil => cases held
  | cons member rest ih =>
      obtain ⟨fresh, others⟩ := List.nodup_cons.mp distinct
      rw [lastMember?_cons]
      rcases List.mem_cons.mp held with here | later
      · rw [← here] at fresh ⊢
        have absent : lastMember? rest key = none := by
          simp only [lastMember?, Option.map_eq_none_iff, List.find?_eq_none, List.mem_reverse]
          intro other among same
          exact fresh (List.mem_map.mpr ⟨other, among, eq_of_beq same⟩)
        rw [absent, if_pos rfl, Option.none_or]
      · rw [ih others later, Option.some_or]

/-- A key leads to its member, in the stored form too. -/
theorem Value.follow?_key {key : String} {v : Value} (distinct : (keysOf members).Nodup)
    (held : (key, v) ∈ members) (rest : List Segment) :
    (Value.object members).canonical.follow? (.key key :: rest) = v.canonical.follow? rest := by
  have found : (Value.object members).canonical.get? key = some v.canonical := by
    rw [get?_canonical, Value.get?, lastMember?_of_mem distinct held, Option.map_some]
  rw [follow?]
  show ((Value.object members).canonical.get? key).bind _ = _
  rw [found, Option.bind_some]

/-- A key leads to the text of its member. -/
theorem Value.follow?_text {key text : String} (distinct : (keysOf members).Nodup)
    (held : (key, .string text) ∈ members) :
    (Value.object members).canonical.follow? [.key key] = some (.string text) :=
  follow?_key distinct held []

/-- A position leads to its item, in the stored form too. -/
theorem Value.follow?_index {items : List Value} {item : Value} (held : items[position]? = some item)
    (rest : List Segment) :
    (Value.array items).canonical.follow? (.index position :: rest) =
      item.canonical.follow? rest := by
  rw [canonical, canonicalItems_eq_map, follow?, step?, List.getElem?_map, held, Option.map_some,
    Option.bind_some]

end BlockForge.Json
