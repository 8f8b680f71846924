/-
# Trees that hold a value

A tree that was read to its end holds a value, and readers of typed data find in it what the value
says, whether the tree was made from a text or from the value itself. An object is read by a walk
over its members. If what is known after some members is known as a function of these members, and
every member adds to it, then the walk ends with what all members together say, and their order
does not matter.
-/

import BlockForge.Block.Attributes
import BlockForge.Json.Reading
import BlockForge.Proofs.Json.Rearranging

namespace BlockForge.Json

variable {α β : Type}

/-- The value that a tree holds. -/
def Node.Holds (node : Node) (v : Value) : Prop := node.value .stored = .ok v

def Items.Hold (items : Items) (values : List Value) : Prop := items.values .stored = .ok values

def Members.Hold (members : Members) (held : List (String × Value)) : Prop :=
  members.values .stored = .ok held

/-! ## What is held where -/

theorem Node.value_array (start : Nat) (items : Items) :
    (Node.array start items).value .stored = (items.values .stored).map Value.array := by
  rw [Node.value]
  show (do return Value.array (← items.values .stored)) = _
  cases items.values .stored <;> rfl

theorem Node.value_object (start : Nat) (members : Members) :
    (Node.object start members).value .stored = (members.values .stored).map Value.object := by
  rw [Node.value]
  show (do return Value.object (← members.values .stored)) = _
  cases members.values .stored <;> rfl

theorem map_eq_ok {ε : Type} {action : Except ε α} {f : α → β} {b : β}
    (mapped : action.map f = .ok b) : ∃ a, action = .ok a ∧ f a = b := by
  cases action with
  | error fault => cases mapped
  | ok a => exact ⟨a, rfl, Except.ok.inj mapped⟩

theorem bind_eq_ok {ε : Type} {action : Except ε α} {next : α → Except ε β} {b : β}
    (bound : action >>= next = .ok b) : ∃ a, action = .ok a ∧ next a = .ok b := by
  cases action with
  | error fault => cases bound
  | ok a => exact ⟨a, rfl, bound⟩

variable {node : Node}

theorem Node.holds_array {items : Items} {values : List Value} (hold : items.Hold values)
    (start : Nat) : (Node.array start items).Holds (.array values) := by
  rw [Node.Holds, Node.value_array, hold]
  rfl

theorem Node.holds_object {members : Members} {held : List (String × Value)}
    (hold : members.Hold held) (start : Nat) : (Node.object start members).Holds (.object held) := by
  rw [Node.Holds, Node.value_object, hold]
  rfl

theorem Items.hold_item {v : Value} {rest : Items} {values : List Value} (holds : node.Holds v)
    (hold : rest.Hold values) (seen : Nat) : (Items.item seen node rest).Hold (v :: values) := by
  rw [Items.Hold, Items.values, holds, hold]
  rfl

theorem Members.hold_member {v : Value} {rest : Members} {held : List (String × Value)}
    (holds : node.Holds v) (hold : rest.Hold held) (key : String) (standing : Nat) :
    (Members.member (.ok key) standing node rest).Hold ((key, v) :: held) := by
  rw [Members.Hold, Members.values, holds, hold]
  rfl

/-- A tree that holds a value is a scalar, an array or an object, as the value is. -/
theorem Node.Holds.parts {v : Value} (holds : node.Holds v) :
    (∃ s stop, node = .scalar (.ok s) stop ∧ s.value = v) ∨
      (∃ start items values, node = .array start items ∧ items.Hold values ∧ .array values = v) ∨
        ∃ start members held, node = .object start members ∧ members.Hold held ∧
          .object held = v := by
  cases node with
  | scalar read stop =>
      obtain ⟨s, rfl, value⟩ := map_eq_ok holds
      exact .inl ⟨s, stop, rfl, value⟩
  | array start items =>
      rw [Node.Holds, Node.value_array] at holds
      obtain ⟨values, hold, value⟩ := map_eq_ok holds
      exact .inr (.inl ⟨start, items, values, rfl, hold, value⟩)
  | object start members =>
      rw [Node.Holds, Node.value_object] at holds
      obtain ⟨held, hold, value⟩ := map_eq_ok holds
      exact .inr (.inr ⟨start, members, held, rfl, hold, value⟩)
  | broken read skip => cases holds

/-- A tree that holds a value without parts is a scalar. -/
theorem Node.Holds.scalar {v : Value} (holds : node.Holds v)
    (noArray : ∀ items, v ≠ .array items) (noObject : ∀ members, v ≠ .object members) :
    ∃ s stop, node = .scalar (.ok s) stop ∧ s.value = v := by
  rcases holds.parts with scalar | ⟨-, -, values, -, -, rfl⟩ | ⟨-, -, held, -, -, rfl⟩
  · exact scalar
  · exact absurd rfl (noArray values)
  · exact absurd rfl (noObject held)

theorem Node.Holds.array {values : List Value} (holds : node.Holds (.array values)) :
    ∃ start items, node = .array start items ∧ items.Hold values := by
  rcases holds.parts with ⟨s, -, -, value⟩ | ⟨start, items, _, rfl, hold, ⟨⟩⟩ |
    ⟨-, -, -, -, -, ⟨⟩⟩
  · cases s <;> cases value
  · exact ⟨start, items, rfl, hold⟩

theorem Node.Holds.object {held : List (String × Value)} (holds : node.Holds (.object held)) :
    ∃ start members, node = .object start members ∧ members.Hold held := by
  rcases holds.parts with ⟨s, -, -, value⟩ | ⟨-, -, -, -, -, ⟨⟩⟩ |
    ⟨start, members, _, rfl, hold, ⟨⟩⟩
  · cases s <;> cases value
  · exact ⟨start, members, rfl, hold⟩

theorem Node.Holds.string {s : String} (holds : node.Holds (.string s)) : node.string = .ok s := by
  obtain ⟨scalar, stop, rfl, value⟩ := holds.scalar (by simp) (by simp)
  cases scalar <;> cases value
  rfl

theorem Node.Holds.bool {b : Bool} (holds : node.Holds (.bool b)) : node.bool = .ok b := by
  obtain ⟨scalar, stop, rfl, value⟩ := holds.scalar (by simp) (by simp)
  cases scalar <;> cases value
  rfl

/-- A value that is not null is read as one that is there. -/
theorem Node.Holds.optional {v : Value} (holds : node.Holds v) (notNull : v ≠ .null)
    {read : Node → Except Fault α} {a : α} (reads : read node = .ok a) :
    node.optional read = .ok (some a) := by
  rw [Node.optional, reads]
  · rfl
  · rintro stop rfl
    exact notNull (Except.ok.inj holds).symm

mutual

/-- A value as a tree holds the value. -/
theorem Node.holds_ofValue : (v : Value) → (Node.ofValue v).Holds v
  | .null => rfl
  | .bool _ => rfl
  | .number _ => rfl
  | .string _ => rfl
  | .array items => Node.holds_array (hold_itemsOfValues items) 0
  | .object members => Node.holds_object (hold_membersOfValues members) 0

theorem hold_itemsOfValues : (items : List Value) → (itemsOfValues items).Hold items
  | [] => rfl
  | item :: rest => Items.hold_item (Node.holds_ofValue item) (hold_itemsOfValues rest) 0

theorem hold_membersOfValues : (members : List (String × Value)) →
    (membersOfValues members).Hold members
  | [] => rfl
  | (key, value) :: rest =>
    Members.hold_member (Node.holds_ofValue value) (hold_membersOfValues rest) key 0

end

/-! ## Enough levels -/

/-- Arrays and objects may be entered so many times. -/
def Origin.Admits (origin : Origin) (depth : Nat) : Prop := ∀ levels ∈ origin.levels, depth < levels

theorem Origin.Admits.mono {origin : Origin} {less more : Nat} (admits : origin.Admits more)
    (fewer : less ≤ more) : origin.Admits less :=
  fun levels bounded => Nat.lt_of_le_of_lt fewer (admits levels bounded)

theorem Origin.admits_of_unbounded {origin : Origin} (unbounded : origin.levels = none)
    (depth : Nat) : origin.Admits depth := by
  intro levels bounded
  rw [unbounded] at bounded
  cases bounded

theorem Origin.admits_text {depth : Nat} (few : depth < 128) : Origin.text.Admits depth := by
  intro levels bounded
  obtain rfl : 128 = levels := Option.some.inj bounded
  exact few

theorem Origin.Admits.enter {origin : Origin} {depth : Nat} (admits : origin.Admits (depth + 1))
    (start : Nat) :
    ∃ inner, origin.enter start = .ok inner ∧ inner.Admits depth ∧
      inner.surplus = origin.surplus := by
  rw [Origin.enter]
  cases bounded : origin.levels with
  | none => exact ⟨origin, rfl, fun levels some => by simp [bounded] at some, rfl⟩
  | some levels =>
      have enough := admits levels bounded
      refine ⟨{ origin with levels := some (levels - 1) }, if_neg (by omega), ?_, rfl⟩
      intro less fewer
      obtain rfl : levels - 1 = less := Option.some.inj fewer
      omega

mutual

/-- The value of a tree is read where it may be nested as deeply. -/
theorem Node.Holds.value : {node : Node} → {v : Value} → {origin : Origin} → node.Holds v →
    origin.Admits v.depth → node.value origin = .ok v
  | .scalar _ _, _, _, holds, _ => holds
  | .broken _ _, _, _, holds, _ => by cases holds
  | .array start items, v, origin, holds, admits => by
    rw [Node.Holds, Node.value_array] at holds
    obtain ⟨values, held, rfl⟩ := map_eq_ok holds
    obtain ⟨inner, entered, enough, -⟩ := admits.enter start
    rw [Node.value, entered]
    show (do return Value.array (← items.values inner)) = _
    rw [Items.Hold.values held enough]
    rfl
  | .object start members, v, origin, holds, admits => by
    rw [Node.Holds, Node.value_object] at holds
    obtain ⟨among, held, rfl⟩ := map_eq_ok holds
    obtain ⟨inner, entered, enough, -⟩ := admits.enter start
    rw [Node.value, entered]
    show (do return Value.object (← members.values inner)) = _
    rw [Members.Hold.values held enough]
    rfl

theorem Items.Hold.values : {items : Items} → {values : List Value} → {origin : Origin} →
    items.Hold values → origin.Admits (depthOfItems values) → items.values origin = .ok values
  | .closed _, _, _, hold, _ => hold
  | .broken _ _, _, _, hold, _ => by cases hold
  | .item _ node rest, values, origin, hold, admits => by
    rw [Items.Hold, Items.values] at hold
    obtain ⟨v, first, hold⟩ := bind_eq_ok hold
    obtain ⟨others, held, hold⟩ := bind_eq_ok hold
    obtain rfl := Except.ok.inj hold
    rw [Items.values, Node.Holds.value first (admits.mono (Nat.le_max_left _ _)),
      Items.Hold.values held (admits.mono (Nat.le_max_right _ _))]
    rfl

theorem Members.Hold.values : {members : Members} → {held : List (String × Value)} →
    {origin : Origin} → members.Hold held → origin.Admits (depthOfMembers held) →
    members.values origin = .ok held
  | .closed _, _, _, hold, _ => hold
  | .broken _ _, _, _, hold, _ => by cases hold
  | .member key _ node rest, held, origin, hold, admits => by
    rw [Members.Hold, Members.values] at hold
    obtain ⟨name, known, hold⟩ := bind_eq_ok hold
    obtain ⟨v, first, hold⟩ := bind_eq_ok hold
    obtain ⟨others, more, hold⟩ := bind_eq_ok hold
    obtain rfl := Except.ok.inj hold
    rw [Members.values, known]
    show (do
      let value ← node.value origin
      return (name, value) :: (← rest.values origin)) = _
    rw [Node.Holds.value first (admits.mono (Nat.le_max_left _ _)),
      Members.Hold.values more (admits.mono (Nat.le_max_right _ _))]
    rfl

end

/-! ## Walks over what is held -/

/-- Items are read one by one. -/
theorem Items.Hold.mapRead {read : Node → Except Fault β} {items : Items} {values : List Value}
    {results : List β} (hold : items.Hold values)
    (reads : List.Forall₂ (fun v b => ∀ node : Node, node.Holds v → read node = .ok b) values
      results) : items.mapRead read = .ok results := by
  induction reads generalizing items with
  | nil =>
      cases items with
      | closed stop => rfl
      | broken fault skip => cases hold
      | item seen node rest =>
          obtain ⟨v, -, hold⟩ := bind_eq_ok hold
          obtain ⟨others, -, hold⟩ := bind_eq_ok hold
          cases hold
  | cons first others ih =>
      cases items with
      | closed stop => cases hold
      | broken fault skip => cases hold
      | item seen node rest =>
          obtain ⟨v, holds, hold⟩ := bind_eq_ok hold
          obtain ⟨values, held, hold⟩ := bind_eq_ok hold
          obtain ⟨rfl, rfl⟩ := List.cons.inj (Except.ok.inj hold)
          rw [Items.mapRead, first node holds, ih held]
          rfl

/-- A result that is there if a key is among some members. -/
def slot (members : List (String × Value)) (key : String) (a : α) : Option α :=
  if key ∈ keysOf members then some a else none

theorem slot_nil (key : String) (a : α) : slot [] key a = none := if_neg List.not_mem_nil

theorem slot_of_notMem {members : List (String × Value)} {key : String}
    (absent : key ∉ keysOf members) (a : α) : slot members key a = none := if_neg absent

theorem slot_append (members : List (String × Value)) (key other : String) (v : Value) (a : α) :
    slot (members ++ [(key, v)]) other a = if other = key then some a else slot members other a := by
  by_cases same : other = key
  · rw [if_pos same, slot, if_pos (by simp [same])]
  · have kept : other ∈ keysOf (members ++ [(key, v)]) ↔ other ∈ keysOf members := by simp [same]
    rw [if_neg same, slot, slot]
    simp only [kept]

/-- An attribute that may be left out is what it was written from. -/
theorem slot_join {members : List (String × Value)} {key : String} {value : Option α}
    (written : value.isSome → key ∈ keysOf members) : (slot members key value).join = value := by
  cases value with
  | none =>
      rw [slot]
      split <;> rfl
  | some a =>
      rw [slot, if_pos (written rfl)]
      rfl

/-- What is there does not depend on the order of the members, nor on their values. -/
theorem slot_of_perm {members others : List (String × Value)} {f : Value → Value}
    (perm : members.Perm (mapMembers f others)) (key : String) (a : α) :
    slot members key a = slot others key a := by
  have same : key ∈ keysOf members ↔ key ∈ keysOf others := by
    rw [← Rearranging.keysOf_mapMembers f others]
    exact (perm.map (·.1)).mem_iff
  rw [slot, slot]
  simp only [same]

theorem exists_of_perm {members others : List (String × Value)} {f : Value → Value}
    (perm : members.Perm (mapMembers f others)) {key : String} {v : Value}
    (held : (key, v) ∈ members) : ∃ w, (key, w) ∈ others ∧ v = f w := by
  obtain ⟨⟨name, w⟩, among, same⟩ := List.mem_map.mp (perm.mem_iff.mp held)
  obtain ⟨rfl, rfl⟩ := Prod.mk.inj same
  exact ⟨w, among, rfl⟩

/-- A walk over members ends with what all of them say, if every member adds what it says. -/
theorem Members.Hold.fold {step : β → String → Nat → Node → Except Fault β}
    (known : List (String × Value) → β) {all : List (String × Value)}
    (takes : ∀ done key v standing, ∀ node : Node, (key, v) ∈ all → key ∉ keysOf done →
      node.Holds v → step (known done) key standing node = .ok (known (done ++ [(key, v)])))
    {members : Members} (hold : members.Hold all) (distinct : (keysOf all).Nodup) :
    ∃ stop, members.fold step (known []) = .ok (known all, stop) := by
  have walks (members : Members) (done rest : List (String × Value)) (hold : members.Hold rest)
      (split : done ++ rest = all) : ∃ stop, members.fold step (known done) = .ok (known all, stop) := by
    induction rest generalizing members done with
    | nil =>
        rw [List.append_nil] at split
        cases members with
        | closed stop => exact ⟨stop, by rw [Members.fold, split]⟩
        | broken fault skip => cases hold
        | member key standing node rest =>
            obtain ⟨name, -, hold⟩ := bind_eq_ok hold
            obtain ⟨v, -, hold⟩ := bind_eq_ok hold
            obtain ⟨others, -, hold⟩ := bind_eq_ok hold
            cases hold
    | cons member rest ih =>
        cases members with
        | closed stop => cases hold
        | broken fault skip => cases hold
        | member key standing node others =>
            obtain ⟨name, named, afterKey⟩ := bind_eq_ok hold
            obtain ⟨v, holds, afterValue⟩ := bind_eq_ok afterKey
            obtain ⟨among, held, whole⟩ := bind_eq_ok afterValue
            obtain ⟨rfl, rfl⟩ := List.cons.inj (Except.ok.inj whole)
            subst named
            have fresh : name ∉ keysOf done := by
              rw [← split, keysOf, List.map_append, List.nodup_append] at distinct
              intro earlier
              exact distinct.2.2 name earlier name (by simp) rfl
            have taken := takes done name v standing node (by rw [← split]; simp) fresh holds
            obtain ⟨stop, walked⟩ := ih others (done ++ [(name, v)]) held (by rw [← split]; simp)
            refine ⟨stop, ?_⟩
            rw [Members.fold]
            show (do
              let known ← step (known done) name standing node
              others.fold step known) = _
            rw [taken]
            exact walked
  exact walks members [] all hold rfl

end BlockForge.Json

namespace BlockForge.Block

open BlockForge.Json

variable {β : Type}

/-- The same for attributes, which are values already. -/
theorem foldAttributes_known {step : β → String → Value → Except Refusal β}
    (known : Attributes → β) {all : Attributes}
    (takes : ∀ done key v, (key, v) ∈ all → key ∉ keysOf done →
      step (known done) key v = .ok (known (done ++ [(key, v)])))
    (distinct : (keysOf all).Nodup) : foldAttributes step (known []) all = .ok (known all) := by
  have walks (done rest : Attributes) (split : done ++ rest = all) :
      foldAttributes step (known done) rest = .ok (known all) := by
    induction rest generalizing done with
    | nil =>
        rw [List.append_nil] at split
        rw [foldAttributes, split]
    | cons member rest ih =>
        obtain ⟨key, v⟩ := member
        have fresh : key ∉ keysOf done := by
          rw [← split, keysOf, List.map_append, List.nodup_append] at distinct
          intro earlier
          exact distinct.2.2 key earlier key (by simp) rfl
        have taken := takes done key v (by rw [← split]; simp) fresh
        rw [foldAttributes, taken]
        exact ih (done ++ [(key, v)]) (by rw [← split]; simp)
  exact walks [] all rfl

/-- A reader that goes through attributes first and then looks at what is known. -/
theorem foldAttributes_bind {γ : Type} {step : β → String → Value → Except Refusal β}
    {next : β → Except Refusal γ} {start : β} {all : Attributes} {result : γ}
    (known : Attributes → β) (starts : known [] = start)
    (takes : ∀ done key v, (key, v) ∈ all → key ∉ keysOf done →
      step (known done) key v = .ok (known (done ++ [(key, v)])))
    (distinct : (keysOf all).Nodup) (ends : next (known all) = .ok result) :
    (foldAttributes step start all >>= next) = .ok result := by
  rw [← starts, foldAttributes_known known takes distinct]
  exact ends

end BlockForge.Block
