/-
# Members of stored objects

The stored form of an object has its keys in strictly increasing order, so no key stands
twice in it. A member is still found under its key: putting the members of an object into
order one by one keeps, for every key, the member that was written last, and that is the
member which a reader of the object takes.
-/

import BlockForge.Json.Value
import Mathlib.Data.String.Basic

namespace BlockForge.Json

variable {α : Type}

/-- Members whose keys strictly increase. -/
def Increasing (members : List (String × α)) : Prop :=
  members.Pairwise fun first second => first.1 < second.1

/-- The value of the first member with a key. -/
def firstMember? (members : List (String × α)) (key : String) : Option α :=
  (members.find? (·.1 == key)).map (·.2)

theorem firstMember?_cons (other key : String) (value : α) (rest : List (String × α)) :
    firstMember? ((other, value) :: rest) key =
      if other = key then some value else firstMember? rest key := by
  unfold firstMember?
  by_cases same : other = key
  · simp [same]
  · simp [same]

theorem mem_insertMember {key : String} {value : α} {members : List (String × α)}
    {member : String × α} (mem : member ∈ insertMember key value members) :
    member = (key, value) ∨ member ∈ members := by
  induction members with
  | nil => simpa [insertMember] using mem
  | cons first rest ih =>
      obtain ⟨other, held⟩ := first
      simp only [insertMember] at mem
      split at mem
      · simpa using mem
      · split at mem
        · rcases List.mem_cons.mp mem with rfl | later
          · exact .inl rfl
          · exact .inr (List.mem_cons_of_mem _ later)
        · rcases List.mem_cons.mp mem with rfl | later
          · exact .inr List.mem_cons_self
          · rcases ih later with rfl | held
            · exact .inl rfl
            · exact .inr (List.mem_cons_of_mem _ held)

/-- Putting in a member keeps the keys in order. -/
theorem increasing_insertMember (key : String) (value : α) {members : List (String × α)}
    (increasing : Increasing members) : Increasing (insertMember key value members) := by
  induction members with
  | nil => simp [insertMember, Increasing]
  | cons first rest ih =>
      obtain ⟨other, held⟩ := first
      obtain ⟨above, increasingRest⟩ := List.pairwise_cons.mp increasing
      simp only [insertMember]
      split
      · rename_i before
        refine List.Pairwise.cons (fun member mem => ?_) increasing
        rcases List.mem_cons.mp mem with rfl | later
        · exact before
        · exact before.trans (above member later)
      · rename_i notBefore
        split
        · rename_i same
          subst same
          exact List.Pairwise.cons above increasingRest
        · rename_i differs
          refine List.Pairwise.cons (fun member mem => ?_) (ih increasingRest)
          rcases mem_insertMember mem with rfl | later
          · exact lt_of_le_of_ne (not_lt.mp notBefore) (Ne.symm differs)
          · exact above member later

/-- A member that was put in is found under its key, and the others as before. -/
theorem firstMember?_insertMember (key other : String) (value : α)
    (members : List (String × α)) :
    firstMember? (insertMember key value members) other =
      if key = other then some value else firstMember? members other := by
  induction members with
  | nil => rw [insertMember, firstMember?_cons]
  | cons first rest ih =>
      obtain ⟨held, heldValue⟩ := first
      simp only [insertMember]
      split
      · rw [firstMember?_cons]
      · split
        · rename_i same
          subst same
          rw [firstMember?_cons, firstMember?_cons]
          split <;> rfl
        · rename_i differs
          rw [firstMember?_cons, ih, firstMember?_cons]
          split
          · rename_i same
            subst same
            rw [if_neg differs]
          · rfl

theorem lastMember?_cons (other key : String) (value : Value) (rest : List (String × Value)) :
    lastMember? ((other, value) :: rest) key =
      (lastMember? rest key).or (if other = key then some value else none) := by
  unfold lastMember?
  rw [List.reverse_cons, List.find?_append]
  by_cases same : other = key
  · cases rest.reverse.find? (·.1 == key) <;> simp [same]
  · cases rest.reverse.find? (·.1 == key) <;> simp [same]

/-- In increasing order there is only one member of a key, so the last one is the first. -/
theorem lastMember?_eq_firstMember? {members : List (String × Value)}
    (increasing : Increasing members) (key : String) :
    lastMember? members key = firstMember? members key := by
  induction members with
  | nil => rfl
  | cons first rest ih =>
      obtain ⟨other, value⟩ := first
      obtain ⟨above, increasingRest⟩ := List.pairwise_cons.mp increasing
      rw [lastMember?_cons, firstMember?_cons, ih increasingRest]
      by_cases same : other = key
      · subst same
        have absent : firstMember? rest other = none := by
          simp only [firstMember?, Option.map_eq_none_iff, List.find?_eq_none, beq_iff_eq]
          intro member mem
          exact (above member mem).ne'
        simp [absent]
      · simp [same]

/-- Sorting members keeps, for every key, the last one. -/
theorem lastMember?_sortMembers (members : List (String × Value)) (key : String) :
    lastMember? (sortMembers members) key = lastMember? members key := by
  have folds (members sorted : List (String × Value)) (increasing : Increasing sorted) :
      lastMember? (members.foldl (fun sorted (key, value) => insertMember key value sorted) sorted)
          key = (lastMember? members key).or (firstMember? sorted key) := by
    induction members generalizing sorted with
    | nil =>
        rw [List.foldl_nil, lastMember?_eq_firstMember? increasing]
        rfl
    | cons first rest ih =>
        obtain ⟨other, value⟩ := first
        rw [List.foldl_cons, ih _ (increasing_insertMember other value increasing),
          firstMember?_insertMember, lastMember?_cons]
        cases lastMember? rest key with
        | some held => rfl
        | none => by_cases same : other = key <;> simp [same]
  rw [sortMembers, folds members [] List.Pairwise.nil]
  cases lastMember? members key <;> rfl

theorem lastMember?_canonicalMembers (members : List (String × Value)) (key : String) :
    lastMember? (canonicalMembers members) key =
      (lastMember? members key).map Value.canonical := by
  induction members with
  | nil => rfl
  | cons first rest ih =>
      obtain ⟨other, value⟩ := first
      rw [canonicalMembers, lastMember?_cons, lastMember?_cons, ih]
      cases lastMember? rest key with
      | some held => rfl
      | none => by_cases same : other = key <;> simp [same]

/-- A member of the stored form of an object is the stored form of its member. -/
theorem get?_canonical (members : List (String × Value)) (key : String) :
    (Value.object members).canonical.get? key =
      ((Value.object members).get? key).map Value.canonical := by
  rw [Value.canonical, Value.get?, Value.get?, lastMember?_sortMembers,
    lastMember?_canonicalMembers]

end BlockForge.Json
