/-
# Walks that fill slots

A reader of an object makes one step for each of its members. What it knows is a row of slots, and
each of them is stepped for itself: a member of one of its keys fills it, once, and other members
leave it as it is. Two steps of such a walk can be made the other way round, so where a walk ends
does not depend on the order of the members, whatever their keys. If a key is met twice, or two keys
of one slot, then there is no walk in any order.
-/

import BlockForge.Proofs.Json.Reordering
import Mathlib.Logic.Equiv.Defs

namespace BlockForge.Json

variable {α β γ μ ν ε δ : Type}

/-! ## Walks -/

/-- One step for each of some members, from what is known at first to what is known at the end. -/
def Walks (step : β → μ → β → Prop) : List μ → β → β → Prop
  | [], known, final => known = final
  | member :: rest, known, final => ∃ next, step known member next ∧ Walks step rest next final

/-- A walk of two columns is a walk of each of them. -/
def Both (first : α → μ → α → Prop) (second : β → μ → β → Prop) (known : α × β) (member : μ)
    (next : α × β) : Prop :=
  first known.1 member next.1 ∧ second known.2 member next.2

theorem walks_both {first : α → μ → α → Prop} {second : β → μ → β → Prop} {members : List μ}
    {known final : α × β} : Walks (Both first second) members known final ↔
      Walks first members known.1 final.1 ∧ Walks second members known.2 final.2 := by
  induction members generalizing known with
  | nil => exact Prod.ext_iff
  | cons member rest ih =>
      constructor
      · rintro ⟨next, ⟨one, two⟩, later⟩
        obtain ⟨ones, twos⟩ := ih.mp later
        exact ⟨⟨next.1, one, ones⟩, ⟨next.2, two, twos⟩⟩
      · rintro ⟨⟨a, one, ones⟩, ⟨b, two, twos⟩⟩
        exact ⟨(a, b), ⟨one, two⟩, ih.mpr ⟨ones, twos⟩⟩

/-- Two kinds of steps over members that correspond to each other, the second of which can be made in
any order. -/
structure Orderless (same : μ → ν → Prop) (step : β → μ → β → Prop) (other : β → ν → β → Prop) :
    Prop where
  blind : ∀ {m n a b}, same m n → (step a m b ↔ other a n b)
  exchange : ∀ {m n a b c}, other a m b → other b n c → ∃ d, other a n d ∧ other d m c

namespace Orderless

variable {same : μ → ν → Prop} {step : β → μ → β → Prop} {other : β → ν → β → Prop}
variable {members : List μ} {moved others : List ν} {known final : β}

theorem walks_pointwise (orderless : Orderless same step other)
    (pointwise : List.Forall₂ same members moved) :
    Walks step members known final ↔ Walks other moved known final := by
  induction pointwise generalizing known with
  | nil => exact Iff.rfl
  | cons first _ ih =>
      exact exists_congr fun next => and_congr (orderless.blind first) ih

theorem walks_perm (orderless : Orderless same step other) (perm : moved.Perm others)
    (walks : Walks other moved known final) : Walks other others known final := by
  induction perm generalizing known with
  | nil => exact walks
  | cons member _ ih =>
      obtain ⟨next, first, later⟩ := walks
      exact ⟨next, first, ih later⟩
  | swap m n rest =>
      obtain ⟨next, first, last, second, later⟩ := walks
      obtain ⟨between, before, behind⟩ := orderless.exchange first second
      exact ⟨between, before, last, behind, later⟩
  | trans _ _ ih further => exact further (ih walks)

/-- A walk ends where the walk over the other members in their order ends. -/
theorem walks_iff (orderless : Orderless same step other)
    (pointwise : List.Forall₂ same members moved) (perm : moved.Perm others) :
    Walks step members known final ↔ Walks other others known final :=
  (orderless.walks_pointwise pointwise).trans
    ⟨orderless.walks_perm perm, orderless.walks_perm perm.symm⟩

theorem both {first : α → μ → α → Prop} {second : α → ν → α → Prop}
    (one : Orderless same first second) (two : Orderless same step other) :
    Orderless same (Both first step) (Both second other) where
  blind alike := and_congr (one.blind alike) (two.blind alike)
  exchange := by
    rintro m n a b c ⟨oneFirst, twoFirst⟩ ⟨oneThen, twoThen⟩
    obtain ⟨d, before, behind⟩ := one.exchange oneFirst oneThen
    obtain ⟨e, earlier, later⟩ := two.exchange twoFirst twoThen
    exact ⟨(d, e), ⟨before, earlier⟩, ⟨behind, later⟩⟩

end Orderless

/-! ## Slots -/

/-- A member of one of the keys of an empty slot fills it with what is read. Other members leave the
slot as it is. -/
def Fills (among : String → Prop) (read : ν → Except ε α) (slot : Option α) (member : String × ν)
    (filled : Option α) : Prop :=
  (among member.1 ∧ slot = none ∧ ∃ a, read member.2 = .ok a ∧ filled = some a) ∨
    (¬ among member.1 ∧ filled = slot)

theorem orderless_fills {same : String × μ → String × ν → Prop} {read : μ → Except ε α}
    {reread : ν → Except δ α} (among : String → Prop) (keys : ∀ m n, same m n → m.1 = n.1)
    (reads : ∀ m n, same m n → Agrees (read m.2) (reread n.2)) :
    Orderless same (Fills among read) (Fills among reread) where
  blind {m n a b} alike := by
    rw [Fills, Fills, keys m n alike]
    simp only [reads m n alike _]
  exchange := by
    rintro m n a b c (⟨own, empty, reads⟩ | ⟨foreign, rfl⟩) later
    · obtain ⟨-, full, -⟩ | ⟨foreign, rfl⟩ := later
      · obtain ⟨v, -, rfl⟩ := reads
        cases full
      · exact ⟨a, .inr ⟨foreign, rfl⟩, .inl ⟨own, empty, reads⟩⟩
    · exact ⟨c, later, .inr ⟨foreign, rfl⟩⟩

/-! ## Readers of attributes -/

theorem bind_eq_ok_iff {action : Except ε α} {next : α → Except ε β} {b : β} :
    (action >>= next) = .ok b ↔ ∃ a, action = .ok a ∧ next a = .ok b := by
  cases action with
  | error fault => exact ⟨nofun, nofun⟩
  | ok a => exact ⟨fun last => ⟨a, rfl, last⟩, fun ⟨_, given, last⟩ => Except.ok.inj given ▸ last⟩

end BlockForge.Json

namespace BlockForge.Block

open BlockForge.Json

variable {α β γ : Type}

theorem fillSlot_eq_ok {slot filled : Option α} {key : String} {read : Except Refusal α} :
    fillSlot slot key read = .ok filled ↔ slot = none ∧ ∃ a, read = .ok a ∧ filled = some a := by
  cases slot <;> cases read <;> simp [fillSlot, Except.map, eq_comm]

/-- Attributes in another order lead to the same, if what is known is a row of columns each of which
is stepped for itself. -/
theorem foldAttributes_agrees {step : β → String → Value → Except Refusal β} (columns : β ≃ γ)
    {takes : γ → String × Value → γ → Prop}
    (steps : ∀ known key v next,
      step known key v = .ok next ↔ takes (columns known) (key, v) (columns next))
    (orderless : Orderless ReorderedMember takes takes) {all others : Attributes}
    (reordered : ReorderedMembers all others) (start : β) :
    Agrees (foldAttributes step start all) (foldAttributes step start others) := by
  have walk (attributes : Attributes) (known final : β) :
      foldAttributes step known attributes = .ok final ↔
        Walks takes attributes (columns known) (columns final) := by
    induction attributes generalizing known with
    | nil =>
        rw [foldAttributes, Walks, columns.apply_eq_iff_eq]
        exact ⟨Except.ok.inj, congrArg _⟩
    | cons member rest ih =>
        rw [foldAttributes, bind_eq_ok_iff, Walks, columns.surjective.exists]
        exact exists_congr fun next => and_congr (steps known member.1 member.2 next) (ih next)
  obtain ⟨moved, pointwise, perm⟩ := reordered
  intro final
  rw [walk, walk]
  exact orderless.walks_iff pointwise perm

end BlockForge.Block
