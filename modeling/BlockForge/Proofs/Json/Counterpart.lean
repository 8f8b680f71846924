/-
# Trees of the same value

Readers of typed data do not see where a tree comes from, nor in which order the members of its
objects stand. So a tree is compared with the tree of its stored value, in which members stand in
another order, and a reader is followed through both of them at once: where it enters an array or an
object in one, it enters it in the other, and what it finds there are counterparts again.

Only a source that looks away from surplus items is left out, since a record written as an array
that is too long is then read in one way and refused in another.
-/

import BlockForge.Proofs.Json.Filling

namespace BlockForge.Json

variable {α β γ : Type}

/-! ## Counterparts -/

/-- A tree that can be read, and the tree of its value with members in another order. -/
def Node.Counterpart (origin : Origin) (node other : Node) : Prop :=
  origin.surplus ≠ .ignored ∧
    ∃ v w, node.value origin = .ok v ∧ v.Reordered w ∧ other = Node.ofValue w

def Items.Counterpart (origin : Origin) (items others : Items) : Prop :=
  origin.surplus ≠ .ignored ∧
    ∃ values moved, items.values origin = .ok values ∧
      List.Forall₂ Value.Reordered values moved ∧ others = itemsOfValues moved

/-- Members that can be read, and those of their values in another order. -/
def Members.Counterpart (origin : Origin) (members others : Members) : Prop :=
  origin.surplus ≠ .ignored ∧
    ∃ held moved, members.values origin = .ok held ∧
      ReorderedMembers held moved ∧ others = membersOfValues moved

variable {origin inner : Origin} {node other : Node}

theorem Origin.surplus_of_enter {start : Nat} (entered : origin.enter start = .ok inner) :
    inner.surplus = origin.surplus := by
  rw [Origin.enter] at entered
  split at entered
  · rw [← Except.ok.inj entered]
  · split at entered
    · cases entered
    · rw [← Except.ok.inj entered]

/-- A tree and its counterpart are the same scalar, or arrays or objects that are entered alike. -/
theorem Node.Counterpart.cases (counterpart : node.Counterpart origin other) :
    (∃ s stop, node = .scalar (.ok s) stop ∧ other = .scalar (.ok s) 0) ∨
    (∃ start items inner others, node = .array start items ∧ other = .array 0 others ∧
      origin.enter start = .ok inner ∧ items.Counterpart inner others) ∨
    (∃ start members inner others, node = .object start members ∧ other = .object 0 others ∧
      origin.enter start = .ok inner ∧ members.Counterpart inner others) := by
  obtain ⟨surplus, v, w, read, reordered, rfl⟩ := counterpart
  cases node with
  | scalar scalar stop =>
      obtain ⟨s, rfl, rfl⟩ := map_eq_ok read
      rw [reordered.scalar]
      refine .inl ⟨s, stop, rfl, ?_⟩
      cases s <;> rfl
  | array start items =>
      obtain ⟨inner, entered, read⟩ := bind_eq_ok read
      obtain ⟨values, values_read, read⟩ := bind_eq_ok read
      obtain rfl := Except.ok.inj read
      obtain ⟨others, rfl, pointwise⟩ := reordered.array
      refine .inr (.inl ⟨start, items, inner, itemsOfValues others, rfl, rfl, entered, ?_⟩)
      rw [← Origin.surplus_of_enter entered] at surplus
      exact ⟨surplus, values, others, values_read, pointwise, rfl⟩
  | object start members =>
      obtain ⟨inner, entered, read⟩ := bind_eq_ok read
      obtain ⟨held, held_read, read⟩ := bind_eq_ok read
      obtain rfl := Except.ok.inj read
      obtain ⟨others, rfl, moved⟩ := reordered.object
      refine .inr (.inr ⟨start, members, inner, membersOfValues others, rfl, rfl, entered, ?_⟩)
      rw [← Origin.surplus_of_enter entered] at surplus
      exact ⟨surplus, held, others, held_read, moved, rfl⟩
  | broken read skip => cases read

/-- Items and their counterparts end together. -/
theorem Items.Counterpart.cases {items others : Items}
    (counterpart : items.Counterpart origin others) :
    (∃ stop, items = .closed stop ∧ others = .closed 0) ∨
    (∃ seen node rest other left, items = .item seen node rest ∧ others = .item 0 other left ∧
      node.Counterpart origin other ∧ rest.Counterpart origin left) := by
  obtain ⟨surplus, values, moved, read, pointwise, rfl⟩ := counterpart
  cases items with
  | closed stop =>
      obtain rfl := Except.ok.inj read
      obtain rfl := List.forall₂_nil_left_iff.mp pointwise
      exact .inl ⟨stop, rfl, rfl⟩
  | broken fault skip => cases read
  | item seen node rest =>
      obtain ⟨v, first, read⟩ := bind_eq_ok read
      obtain ⟨values, later, read⟩ := bind_eq_ok read
      obtain rfl := Except.ok.inj read
      obtain ⟨w, moved, same, others, rfl⟩ := List.forall₂_cons_left_iff.mp pointwise
      exact .inr ⟨seen, node, rest, Node.ofValue w, itemsOfValues moved, rfl, rfl,
        ⟨surplus, v, w, first, same, rfl⟩, surplus, values, moved, later, others, rfl⟩

/-! ## Readers that do not see the difference -/

/-- A reader that gives the same for a tree and its counterpart. -/
def SeesThrough (read : Origin → Node → Except Fault α) : Prop :=
  ∀ ⦃origin node other⦄, node.Counterpart origin other →
    Agrees (read origin node) (read .stored other)

/-- A reader of scalars, which refuses arrays and objects. -/
theorem seesThrough_of_scalars {read : Node → Except Fault α}
    (scalars : ∀ s stop, Agrees (read (.scalar (.ok s) stop)) (read (.scalar (.ok s) 0)))
    (arrays : ∀ start items others, Agrees (read (.array start items)) (read (.array 0 others)))
    (objects : ∀ start members others,
      Agrees (read (.object start members)) (read (.object 0 others))) :
    SeesThrough fun _ => read := by
  intro origin node other counterpart
  obtain ⟨s, stop, rfl, rfl⟩ | ⟨_, _, _, _, rfl, rfl, _⟩ | ⟨_, _, _, _, rfl, rfl, _⟩ :=
    counterpart.cases
  · exact scalars s stop
  · exact arrays _ _ _
  · exact objects _ _ _

theorem seesThrough_string : SeesThrough fun _ => Node.string := by
  refine seesThrough_of_scalars (fun s stop => ?_) (fun _ _ _ => Agrees.errors _ _)
    fun _ _ _ => Agrees.errors _ _
  cases s with
  | string s => exact Agrees.refl _
  | _ => exact Agrees.errors _ _

theorem seesThrough_bool : SeesThrough fun _ => Node.bool := by
  refine seesThrough_of_scalars (fun s stop => ?_) (fun _ _ _ => Agrees.errors _ _)
    fun _ _ _ => Agrees.errors _ _
  cases s with
  | bool b => exact Agrees.refl _
  | _ => exact Agrees.errors _ _

namespace SeesThrough

variable {read : Origin → Node → Except Fault α}

theorem optional (sees : SeesThrough read) :
    SeesThrough fun origin => Node.optional (read origin) := by
  intro origin node other counterpart
  have inside := (sees counterpart).map some
  obtain ⟨s, stop, rfl, rfl⟩ | ⟨_, _, _, _, rfl, rfl, _⟩ | ⟨_, _, _, _, rfl, rfl, _⟩ :=
    counterpart.cases
  · cases s with
    | null => exact Agrees.refl _
    | _ => exact inside
  · exact inside
  · exact inside

theorem mapRead (sees : SeesThrough read) : (items : Items) → {others : Items} →
    items.Counterpart origin others →
      Agrees (items.mapRead (read origin)) (others.mapRead (read .stored))
  | .closed _, _, counterpart => by
    obtain ⟨_, _, rfl⟩ | ⟨_, _, _, _, _, same, _⟩ := counterpart.cases
    · exact Agrees.refl _
    · cases same
  | .broken _ _, _, counterpart => by
    obtain ⟨_, same, _⟩ | ⟨_, _, _, _, _, same, _⟩ := counterpart.cases <;> cases same
  | .item _ node rest, _, counterpart => by
    obtain ⟨_, same, _⟩ | ⟨_, _, _, other, left, same, rfl, first, later⟩ := counterpart.cases
    · cases same
    · cases same
      rw [Items.mapRead, Items.mapRead]
      refine (sees first).bind fun a => ?_
      exact (sees.mapRead rest later).bind fun _ => Agrees.refl _

theorem list (sees : SeesThrough read) : SeesThrough fun origin => Node.list origin read := by
  intro origin node other counterpart
  obtain ⟨s, stop, rfl, rfl⟩ | ⟨_, items, inner, others, rfl, rfl, entered, inside⟩ |
    ⟨_, _, _, _, rfl, rfl, _⟩ := counterpart.cases
  · exact Agrees.errors _ _
  · show Agrees (origin.enter _ >>= fun inner => items.mapRead (read inner)) _
    rw [entered]
    exact sees.mapRead items inside
  · exact Agrees.errors _ _

end SeesThrough

theorem seesThrough_record {expected : String} {ofItems : Origin → Items → Except Fault α}
    {ofMembers : Origin → Members → Except Fault α}
    (arrays : ∀ {origin items others}, items.Counterpart origin others →
      Agrees (ofItems origin items) (ofItems .stored others))
    (objects : ∀ {origin members others}, members.Counterpart origin others →
      Agrees (ofMembers origin members) (ofMembers .stored others)) :
    SeesThrough fun origin => Node.record origin expected ofItems ofMembers := by
  intro origin node other counterpart
  obtain ⟨s, stop, rfl, rfl⟩ | ⟨_, _, _, _, rfl, rfl, entered, inside⟩ |
    ⟨_, _, _, _, rfl, rfl, entered, inside⟩ := counterpart.cases
  · exact Agrees.errors _ _
  · show Agrees (origin.enter _ >>= fun inner => ofItems inner _) _
    rw [entered]
    exact arrays inside
  · show Agrees (origin.enter _ >>= fun inner => ofMembers inner _) _
    rw [entered]
    exact objects inside

theorem seesThrough_mapOnly {expected : String} {ofMembers : Origin → Members → Except Fault α}
    (objects : ∀ {origin members others}, members.Counterpart origin others →
      Agrees (ofMembers origin members) (ofMembers .stored others)) :
    SeesThrough fun origin => Node.mapOnly origin expected ofMembers := by
  intro origin node other counterpart
  obtain ⟨s, stop, rfl, rfl⟩ | ⟨_, _, _, _, rfl, rfl, _⟩ |
    ⟨_, _, _, _, rfl, rfl, entered, inside⟩ := counterpart.cases
  · exact Agrees.errors _ _
  · exact Agrees.errors _ _
  · show Agrees (origin.enter _ >>= fun inner => ofMembers inner _) _
    rw [entered]
    exact objects inside

/-! ## Records that are written as arrays -/

section Places

variable {read : Origin → Node → Except Fault α} {items others : Items}
variable {next further : α × Items → Except Fault β}

theorem SeesThrough.required_bind (sees : SeesThrough read)
    (counterpart : items.Counterpart origin others) (index : Nat) (expected : String)
    (onward : ∀ a {rest left}, rest.Counterpart origin left →
      Agrees (next (a, rest)) (further (a, left))) :
    Agrees (items.required index expected (read origin) >>= next)
      (others.required index expected (read .stored) >>= further) := by
  obtain ⟨_, rfl, rfl⟩ | ⟨_, node, rest, other, left, rfl, rfl, first, later⟩ := counterpart.cases
  · exact Agrees.errors _ _
  · exact (sees first).map_bind fun a => onward a later

theorem SeesThrough.orDefault_bind (sees : SeesThrough read)
    (counterpart : items.Counterpart origin others) (default : α)
    (onward : ∀ a {rest left}, rest.Counterpart origin left →
      Agrees (next (a, rest)) (further (a, left))) :
    Agrees (items.orDefault default (read origin) >>= next)
      (others.orDefault default (read .stored) >>= further) := by
  obtain ⟨stop, rfl, rfl⟩ | ⟨_, node, rest, other, left, rfl, rfl, first, later⟩ :=
    counterpart.cases
  · exact onward default ⟨counterpart.1, [], [], rfl, .nil, rfl⟩
  · exact (sees first).map_bind fun a => onward a later

/-- A record ends where its counterpart ends, and a surplus item is a fault in both. -/
theorem Items.Counterpart.finish {all every : Items} (counterpart : items.Counterpart origin others) :
    Agrees (Items.finish origin all items) (Items.finish .stored every others) := by
  obtain ⟨stop, rfl, rfl⟩ | ⟨_, node, rest, other, left, rfl, rfl, -, -⟩ := counterpart.cases
  · exact Agrees.refl _
  · have looks := counterpart.1
    rw [Items.finish.eq_def, Items.finish.eq_def]
    cases surplus : origin.surplus with
    | ignored => exact absurd surplus looks
    | _ => exact Agrees.errors _ _

end Places

/-! ## Records that are written as objects -/

mutual

/-- What can be read can be passed over. -/
theorem Node.skip_of_value : {origin : Origin} → {v : Value} → (node : Node) →
    node.value origin = .ok v → node.skip = .ok ()
  | _, _, .scalar _ _, _ => rfl
  | _, _, .broken _ _, read => by cases read
  | _, _, .array _ items, read => by
    obtain ⟨inner, -, read⟩ := bind_eq_ok read
    obtain ⟨values, inside, -⟩ := bind_eq_ok read
    exact Items.skip_of_values items inside
  | _, _, .object _ members, read => by
    obtain ⟨inner, -, read⟩ := bind_eq_ok read
    obtain ⟨held, inside, -⟩ := bind_eq_ok read
    exact Members.skip_of_values members inside

theorem Items.skip_of_values : {origin : Origin} → {values : List Value} → (items : Items) →
    items.values origin = .ok values → items.skip = .ok ()
  | _, _, .closed _, _ => rfl
  | _, _, .broken _ _, read => by cases read
  | _, _, .item _ node rest, read => by
    obtain ⟨v, first, read⟩ := bind_eq_ok read
    obtain ⟨values, later, -⟩ := bind_eq_ok read
    rw [Items.skip, Node.skip_of_value node first]
    exact Items.skip_of_values rest later

theorem Members.skip_of_values : {origin : Origin} → {held : List (String × Value)} →
    (members : Members) → members.values origin = .ok held → members.skip = .ok ()
  | _, _, .closed _, _ => rfl
  | _, _, .broken _ _, read => by cases read
  | _, _, .member _ _ node rest, read => by
    obtain ⟨key, -, read⟩ := bind_eq_ok read
    obtain ⟨v, first, read⟩ := bind_eq_ok read
    obtain ⟨held, later, -⟩ := bind_eq_ok read
    rw [Members.skip, Node.skip_of_value node first]
    exact Members.skip_of_values rest later

end

/-- The members of an object up to the first that has no key. -/
def Members.entries : Members → List (String × Node)
  | .member (.ok key) _ node rest => (key, node) :: rest.entries
  | _ => []

/-- A member, and one of the same key whose tree is a counterpart. -/
def MemberCounterpart (origin : Origin) (member other : String × Node) : Prop :=
  member.1 = other.1 ∧ member.2.Counterpart origin other.2

theorem entries_membersOfValues (held : List (String × Value)) :
    (membersOfValues held).entries = held.map fun member => (member.1, Node.ofValue member.2) := by
  induction held with
  | nil => rfl
  | cons member rest ih =>
      rw [membersOfValues, Members.entries, ih]
      rfl

theorem entries_of_values {held : List (String × Value)} : (members : Members) →
    members.values origin = .ok held → List.Forall₂
      (fun entry member => entry.1 = member.1 ∧ entry.2.value origin = .ok member.2)
      members.entries held
  | .closed _, read => by
    rw [← Except.ok.inj read]
    exact .nil
  | .broken _ _, read => by cases read
  | .member key _ node rest, read => by
    obtain ⟨name, named, afterKey⟩ := bind_eq_ok read
    obtain ⟨v, first, afterValue⟩ := bind_eq_ok afterKey
    obtain ⟨held, later, whole⟩ := bind_eq_ok afterValue
    subst named
    rw [← Except.ok.inj whole]
    exact .cons ⟨rfl, first⟩ (entries_of_values rest later)

theorem counterparts_of_values (surplus : origin.surplus ≠ .ignored)
    {entries : List (String × Node)} {held moved : List (String × Value)}
    (values : List.Forall₂
      (fun entry member => entry.1 = member.1 ∧ entry.2.value origin = .ok member.2) entries held)
    (reordered : List.Forall₂ ReorderedMember held moved) :
    List.Forall₂ (MemberCounterpart origin) entries
      (moved.map fun member => (member.1, Node.ofValue member.2)) := by
  induction values generalizing moved with
  | nil =>
      obtain rfl := List.forall₂_nil_left_iff.mp reordered
      exact .nil
  | cons first _ ih =>
      obtain ⟨other, moved, same, later, rfl⟩ := List.forall₂_cons_left_iff.mp reordered
      exact .cons ⟨first.1.trans same.1, surplus, _, _, first.2, same.2, rfl⟩ (ih later)

theorem Members.Counterpart.entries {members others : Members}
    (counterpart : members.Counterpart origin others) :
    ∃ moved, List.Forall₂ (MemberCounterpart origin) members.entries moved ∧
      moved.Perm others.entries := by
  obtain ⟨surplus, held, arranged, read, ⟨moved, pointwise, perm⟩, rfl⟩ := counterpart
  refine ⟨moved.map fun member => (member.1, Node.ofValue member.2), ?_, ?_⟩
  · exact counterparts_of_values surplus (entries_of_values members read) pointwise
  · rw [entries_membersOfValues]
    exact perm.map _

theorem SeesThrough.slot {read : Origin → Node → Except Fault α} (sees : SeesThrough read)
    (origin : Origin) (among : String → Prop) :
    Orderless (MemberCounterpart origin) (Fills among (read origin)) (Fills among (read .stored)) :=
  orderless_fills among (fun _ _ same => same.1) (fun _ _ same => sees same.2)

theorem fill_eq_ok {slot filled : Option α} {key : String} {standing : Nat}
    {read : Except Fault α} : fill slot key standing read = .ok filled ↔
      slot = none ∧ ∃ a, read = .ok a ∧ filled = some a := by
  cases slot <;> cases read <;> simp [fill, Except.map, eq_comm]

/-- A step of a reader of members, and the step that it makes of each of its columns. -/
def Steps (take : Origin → β → String → Nat → Node → Except Fault β) (columns : β ≃ γ)
    (takes : Origin → γ → String × Node → γ → Prop) : Prop :=
  ∀ ⦃origin node v⦄, node.value origin = .ok v → ∀ known key standing next,
    take origin known key standing node = .ok next ↔
      takes origin (columns known) (key, node) (columns next)

section Folding

variable {take : Origin → β → String → Nat → Node → Except Fault β} {columns : β ≃ γ}
variable {takes : Origin → γ → String × Node → γ → Prop}

/-- Going through the members of an object is a walk. -/
theorem Steps.fold_iff (steps : Steps take columns takes) : (members : Members) →
    {held : List (String × Value)} → members.values origin = .ok held → (known final : β) →
      ((∃ stop, members.fold (take origin) known = .ok (final, stop)) ↔
        Walks (takes origin) members.entries (columns known) (columns final))
  | .closed stop, _, _, known, final => by
    rw [Members.fold, Members.entries, Walks, columns.apply_eq_iff_eq]
    · constructor
      · rintro ⟨_, same⟩
        exact (Prod.mk.inj (Except.ok.inj same)).1
      · rintro rfl
        exact ⟨stop, rfl⟩
    · intro _ _ _ _ same
      cases same
  | .broken _ _, _, read, _, _ => by cases read
  | .member key standing node rest, _, read, known, final => by
    obtain ⟨name, named, afterKey⟩ := bind_eq_ok read
    obtain ⟨v, first, afterValue⟩ := bind_eq_ok afterKey
    obtain ⟨held, later, -⟩ := bind_eq_ok afterValue
    subst named
    rw [Members.entries, Walks, columns.surjective.exists]
    constructor
    · rintro ⟨stop, walked⟩
      have walked : (take origin known name standing node >>= fun known =>
        rest.fold (take origin) known) = .ok (final, stop) := walked
      obtain ⟨next, taken, onward⟩ := bind_eq_ok walked
      exact ⟨next, (steps first known name standing next).mp taken,
        (steps.fold_iff rest later next final).mp ⟨stop, onward⟩⟩
    · rintro ⟨next, taken, onward⟩
      obtain ⟨stop, walked⟩ := (steps.fold_iff rest later next final).mpr onward
      refine ⟨stop, ?_⟩
      show (take origin known name standing node >>= fun known =>
        rest.fold (take origin) known) = _
      rw [(steps first known name standing next).mpr taken]
      exact walked

/-- A reader of members gives the same for counterparts, if it looks at what is known behind them. -/
theorem Steps.fold_bind (steps : Steps take columns takes)
    (orderless : ∀ origin, Orderless (MemberCounterpart origin) (takes origin) (takes .stored))
    {members others : Members} (counterpart : members.Counterpart origin others) (start : β)
    {next further : β × Nat → Except Fault α}
    (ends : ∀ known stop last, Agrees (next (known, stop)) (further (known, last))) :
    Agrees (members.fold (take origin) start >>= next)
      (others.fold (take .stored) start >>= further) := by
  obtain ⟨moved, pointwise, perm⟩ := counterpart.entries
  obtain ⟨-, held, arranged, read, -, rfl⟩ := counterpart
  have same := hold_membersOfValues arranged
  have walks (final : β) := (steps.fold_iff members read start final).trans
    (((orderless origin).walks_iff pointwise perm).trans (steps.fold_iff _ same start final).symm)
  refine Agrees.bind_related (fun ending other => ending.1 = other.1) ?_ ?_ ?_
  · rintro ⟨final, stop⟩ walked
    obtain ⟨last, again⟩ := (walks final).mp ⟨stop, walked⟩
    exact ⟨(final, last), again, rfl⟩
  · rintro ⟨final, last⟩ walked
    obtain ⟨stop, again⟩ := (walks final).mpr ⟨last, walked⟩
    exact ⟨(final, stop), again, rfl⟩
  · rintro ⟨final, stop⟩ ⟨_, last⟩ rfl
    exact ends final stop last

end Folding

end BlockForge.Json
