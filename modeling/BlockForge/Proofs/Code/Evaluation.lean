/-
# Arrays when they are evaluated

An array literal may be written with two entries of one key. PHP puts the entries into the array
one after the other, so the later value takes the place of the earlier one, and nothing tells that
a value was dropped. A text that is spelled like an integer of 64 bits is the key of that integer;
different texts are different keys all the same. An item without a key gets a position of its own.

An array that has keys for all of its entries keeps all of its values exactly if no key is written
twice, and one that has no keys always does. Arrays that have both are not looked at. A value is
evaluated together with the arrays that are nested in it, so these are listed too.
-/

import BlockForge.Code.Literal
import Mathlib.Data.List.Nodup

namespace BlockForge.Code

/-- A key of an array that was evaluated. -/
inductive ArrayKey where
  | position (n : Int)
  /-- A text that is not spelled like an integer. -/
  | name (text : String)
  deriving DecidableEq

/-- The key that a text is. -/
def ArrayKey.ofText (text : String) : ArrayKey :=
  match text.toInt? with
  | some n => if fitsSigned64 n && intChars n == text.toList then .position n else .name text
  | none => .name text

/-- An array that was evaluated: its values in order, each under its key. -/
abbrev Evaluated := List (ArrayKey × Literal)

namespace Evaluated

def nextPosition : Evaluated → Int
  | [] => 0
  | (.position n, _) :: rest => max (n + 1) (nextPosition rest)
  | (.name _, _) :: rest => nextPosition rest

/-- The key of an entry that is put into an array. -/
def keyFor (array : Evaluated) : Option String → ArrayKey
  | some text => .ofText text
  | none => .position array.nextPosition

/-- Puts a value under a key, in place of the value that is there. -/
def assign (key : ArrayKey) (value : Literal) : Evaluated → Evaluated
  | [] => [(key, value)]
  | (other, held) :: rest =>
    if other = key then (key, value) :: rest else (other, held) :: assign key value rest

def extend (array : Evaluated) : Entries → Evaluated
  | [] => array
  | (key, value) :: rest => extend (assign (array.keyFor key) value array) rest

end Evaluated

namespace Entries

def evaluate (entries : Entries) : Evaluated := Evaluated.extend [] entries

/-- Every value that is written is there after the evaluation. -/
def KeepsValues (entries : Entries) : Prop :=
  entries.evaluate.map (·.2) = entries.map (·.2)

/-- Either all entries have keys, or none of them does. -/
def Unmixed (entries : Entries) : Prop :=
  (∀ entry ∈ entries, entry.1.isSome) ∨ ∀ entry ∈ entries, entry.1 = none

@[simp]
theorem keys_nil : keys [] = [] := rfl

@[simp]
theorem keys_cons (key : Option String) (value : Literal) (rest : Entries) :
    keys ((key, value) :: rest) = key.toList ++ keys rest := by
  cases key <;> rfl

theorem keys_eq_nil {entries : Entries} (items : ∀ entry ∈ entries, entry.1 = none) :
    entries.keys = [] :=
  List.filterMap_eq_nil_iff.mpr items

end Entries

mutual

/-- The arrays of a value, every one of them before those that are nested in it. -/
def Literal.arrays : Literal → List Entries
  | .list items => [items.map fun item => (none, .string item)]
  | .array entries => entries :: entryArrays entries
  | .inline entries => entries :: entryArrays entries
  | _ => []

/-- The arrays in the values of entries. -/
def entryArrays : List (Option String × Literal) → List Entries
  | [] => []
  | (_, value) :: rest => value.arrays ++ entryArrays rest

end

@[simp]
theorem entryArrays_nil : entryArrays [] = [] := rfl

@[simp]
theorem entryArrays_array (key : String) (entries rest : Entries) :
    entryArrays (entry key (.array entries) :: rest) =
      entries :: (entryArrays entries ++ entryArrays rest) := rfl

theorem entryArrays_eq_flatMap (entries : Entries) :
    entryArrays entries = entries.flatMap (·.2.arrays) := by
  induction entries with
  | nil => rfl
  | cons entry rest ih => rw [entryArrays, ih, List.flatMap_cons]

theorem entryArrays_append (front back : Entries) :
    entryArrays (front ++ back) = entryArrays front ++ entryArrays back := by
  simp only [entryArrays_eq_flatMap, List.flatMap_append]

variable {array : Evaluated} {entries : Entries} {key : ArrayKey}

/-! ## Keys -/

theorem ArrayKey.ofText_eq (text : String) :
    ofText text = .name text ∨ ∃ n, ofText text = .position n ∧ intChars n = text.toList := by
  rw [ofText]
  split
  · split
    · rename_i n _ spelled
      rw [Bool.and_eq_true, beq_iff_eq] at spelled
      exact .inr ⟨n, rfl, spelled.2⟩
    · exact .inl rfl
  · exact .inl rfl

/-- Different texts are different keys, also where they are integers. -/
theorem ArrayKey.ofText_injective : Function.Injective ofText := by
  intro first second same
  rcases ofText_eq first with own | ⟨n, own, spelled⟩ <;>
    rcases ofText_eq second with ownToo | ⟨m, ownToo, spelledToo⟩
  · simpa [own, ownToo] using same
  · simp [own, ownToo] at same
  · simp [own, ownToo] at same
  · obtain rfl : n = m := by simpa [own, ownToo] using same
    exact String.toList_inj.mp (spelled.symm.trans spelledToo)

namespace Evaluated

theorem lt_nextPosition {n : Int} (held : .position n ∈ array.map (·.1)) :
    n < array.nextPosition := by
  induction array with
  | nil => cases held
  | cons first rest ih =>
      obtain ⟨key, value⟩ := first
      rcases List.mem_cons.mp held with same | inRest
      · obtain rfl : ArrayKey.position n = key := same
        rw [nextPosition]
        omega
      · have below := ih inRest
        cases key with
        | position m =>
            rw [nextPosition]
            omega
        | name text => exact below

theorem nextPosition_notMem : .position array.nextPosition ∉ array.map (·.1) :=
  fun held => Int.lt_irrefl _ (lt_nextPosition held)

/-! ## Values -/

theorem assign_of_notMem (fresh : key ∉ array.map (·.1)) (value : Literal) :
    assign key value array = array ++ [(key, value)] := by
  induction array with
  | nil => rfl
  | cons first rest ih =>
      obtain ⟨other, held⟩ := first
      rw [List.map_cons, List.mem_cons, not_or] at fresh
      rw [assign, if_neg (Ne.symm fresh.1), ih fresh.2, List.cons_append]

/-- A value that takes the place of another one adds nothing. -/
theorem length_assign_of_mem (there : key ∈ array.map (·.1)) (value : Literal) :
    (assign key value array).length = array.length := by
  induction array with
  | nil => cases there
  | cons first rest ih =>
      obtain ⟨other, held⟩ := first
      rw [assign]
      split
      · rfl
      · rename_i differs
        have inRest := (List.mem_cons.mp there).resolve_left (Ne.symm differs)
        rw [List.length_cons, List.length_cons, ih inRest]

theorem length_assign_le (value : Literal) :
    (assign key value array).length ≤ array.length + 1 := by
  by_cases there : key ∈ array.map (·.1)
  · rw [length_assign_of_mem there]
    exact Nat.le_succ _
  · have longer := congrArg List.length (assign_of_notMem there value)
    rw [List.length_append, List.length_singleton] at longer
    exact Nat.le_of_eq longer

theorem length_extend_le (array : Evaluated) (entries : Entries) :
    (array.extend entries).length ≤ array.length + entries.length := by
  induction entries generalizing array with
  | nil => exact Nat.le_refl _
  | cons entry rest ih =>
      obtain ⟨key, value⟩ := entry
      have whole := ih (assign (array.keyFor key) value array)
      have step : (assign (array.keyFor key) value array).length ≤ array.length + 1 :=
        length_assign_le value
      rw [extend, List.length_cons]
      omega

/-- Items without keys are all put behind what is there. -/
theorem values_extend_items (items : ∀ entry ∈ entries, entry.1 = none) :
    (array.extend entries).map (·.2) = array.map (·.2) ++ entries.map (·.2) := by
  induction entries generalizing array with
  | nil => rw [extend, List.map_nil, List.append_nil]
  | cons entry rest ih =>
      obtain ⟨key, value⟩ := entry
      obtain ⟨rfl, others⟩ := List.forall_mem_cons.mp items
      rw [extend, ih others, keyFor, assign_of_notMem nextPosition_notMem]
      simp

/-- Entries with keys are all put behind what is there if their keys are new ones. -/
theorem values_extend_keyed (keyed : ∀ entry ∈ entries, entry.1.isSome)
    (distinct : entries.keys.Nodup)
    (fresh : ∀ text ∈ entries.keys, ArrayKey.ofText text ∉ array.map (·.1)) :
    (array.extend entries).map (·.2) = array.map (·.2) ++ entries.map (·.2) := by
  induction entries generalizing array with
  | nil => rw [extend, List.map_nil, List.append_nil]
  | cons entry rest ih =>
      obtain ⟨_ | text, value⟩ := entry
      · simp at keyed
      · obtain ⟨-, others⟩ := List.forall_mem_cons.mp keyed
        rw [Entries.keys_cons, Option.toList_some, List.singleton_append] at distinct fresh
        obtain ⟨apart, distinct⟩ := List.nodup_cons.mp distinct
        obtain ⟨own, freshRest⟩ := List.forall_mem_cons.mp fresh
        rw [extend, keyFor, assign_of_notMem own, ih others distinct]
        · simp
        · intro other held
          have differs : ArrayKey.ofText other ≠ .ofText text := fun same =>
            apart (ArrayKey.ofText_injective same ▸ held)
          simpa [differs] using freshRest other held

/-- A key that is there already, or that is written twice, costs a value. -/
theorem keys_new_of_length_extend (keyed : ∀ entry ∈ entries, entry.1.isSome)
    (whole : (array.extend entries).length = array.length + entries.length) :
    entries.keys.Nodup ∧ ∀ text ∈ entries.keys, ArrayKey.ofText text ∉ array.map (·.1) := by
  induction entries generalizing array with
  | nil => simp
  | cons entry rest ih =>
      obtain ⟨_ | text, value⟩ := entry
      · simp at keyed
      · obtain ⟨-, others⟩ := List.forall_mem_cons.mp keyed
        rw [extend, keyFor, List.length_cons] at whole
        have own : ArrayKey.ofText text ∉ array.map (·.1) := by
          intro there
          have most := length_extend_le (assign (.ofText text) value array) rest
          rw [length_assign_of_mem there] at most
          omega
        rw [assign_of_notMem own] at whole
        obtain ⟨distinct, fresh⟩ := ih others (whole.trans (by simp; omega))
        rw [Entries.keys_cons, Option.toList_some, List.singleton_append]
        refine ⟨List.nodup_cons.mpr ⟨fun held => ?_, distinct⟩, ?_⟩
        · simpa using fresh text held
        · refine List.forall_mem_cons.mpr ⟨own, fun other held there => fresh other held ?_⟩
          simp only [List.map_append, List.mem_append]
          exact .inl there

end Evaluated

/-- An array keeps all of its values exactly if no key is written twice. -/
theorem Entries.keepsValues_iff (unmixed : entries.Unmixed) :
    entries.KeepsValues ↔ entries.keys.Nodup := by
  rcases unmixed with keyed | items
  · constructor
    · intro kept
      have lengths := congrArg List.length kept
      rw [List.length_map, List.length_map] at lengths
      exact (Evaluated.keys_new_of_length_extend keyed
        (lengths.trans (Nat.zero_add _).symm)).1
    · intro distinct
      exact Evaluated.values_extend_keyed keyed distinct (by simp)
  · rw [keys_eq_nil items]
    exact iff_of_true (Evaluated.values_extend_items items) List.nodup_nil

end BlockForge.Code
