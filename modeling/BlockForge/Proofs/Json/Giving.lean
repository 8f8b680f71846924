/-
# What reading a JSON value gives

The numbers of a JSON value are whole numbers of 64 bits and finite doubles. Whatever a reader
makes of such a value is made of such numbers, which is said here for the readers that all others
are put together from. What an action gives is described without regard to whether it gives
anything at all.
-/

import BlockForge.Proofs.Json.Holding

namespace BlockForge

open BlockForge.Json

variable {α β ε : Type}

/-! ## What an action gives -/

/-- Whatever an action gives has a property. It need not give anything. -/
def Gives (p : α → Prop) (action : Except ε α) : Prop := ∀ a, action = .ok a → p a

namespace Gives

variable {p : α → Prop} {q : β → Prop}

theorem ok {a : α} (has : p a) : Gives p (.ok a : Except ε α) := by
  intro b same
  rwa [← Except.ok.inj same]

theorem error (fault : ε) : Gives p (.error fault : Except ε α) := by
  intro a same
  cases same

theorem bind {action : Except ε α} {next : α → Except ε β} (gives : Gives p action)
    (onward : ∀ a, p a → Gives q (next a)) : Gives q (action >>= next) := by
  intro b bound
  obtain ⟨a, given, last⟩ := bind_eq_ok bound
  exact onward a (gives a given) b last

theorem map {action : Except ε α} {f : α → β} (gives : Gives (fun a => q (f a)) action) :
    Gives q (action.map f) := by
  intro b mapped
  obtain ⟨a, given, rfl⟩ := map_eq_ok mapped
  exact gives a given

theorem mono {r : α → Prop} {action : Except ε α} (gives : Gives p action)
    (weaker : ∀ a, p a → r a) : Gives r action :=
  fun a given => weaker a (gives a given)

/-- What is not known does not matter. -/
theorem anything (action : Except ε α) : Gives (fun _ => True) action :=
  fun _ _ => trivial

end Gives

namespace Json

mutual

/-- Every number that a tree holds is one that JSON has. -/
def Node.IsJson : Node → Prop
  | .scalar (.ok s) _ => s.value.IsJson
  | .array _ items => items.AreJson
  | .object _ members => members.AreJson
  | _ => True

def Items.AreJson : Items → Prop
  | .item _ node rest => node.IsJson ∧ rest.AreJson
  | _ => True

def Members.AreJson : Members → Prop
  | .member _ _ node rest => node.IsJson ∧ rest.AreJson
  | _ => True

end

mutual

theorem Node.isJson_ofValue : (v : Value) → v.IsJson → (Node.ofValue v).IsJson
  | .null, _ => trivial
  | .bool _, _ => trivial
  | .string _, _ => trivial
  | .number _, json => json
  | .array items, json => areJson_itemsOfValues items json
  | .object members, json => areJson_membersOfValues members json

theorem areJson_itemsOfValues : (items : List Value) → EachItem Number.IsJson items →
    (itemsOfValues items).AreJson
  | [], _ => trivial
  | item :: rest, json => ⟨Node.isJson_ofValue item json.1, areJson_itemsOfValues rest json.2⟩

theorem areJson_membersOfValues : (members : List (String × Value)) →
    EachMember Number.IsJson members → (membersOfValues members).AreJson
  | [], _ => trivial
  | (_, value) :: rest, json =>
    ⟨Node.isJson_ofValue value json.1, areJson_membersOfValues rest json.2⟩

end

mutual

theorem Node.value_gives (origin : Origin) : (node : Node) → node.IsJson →
    Gives Value.IsJson (node.value origin)
  | .scalar (.ok _) _, json => Gives.ok json
  | .scalar (.error fault) _, _ => Gives.error fault
  | .broken read _, _ => Gives.error read
  | .array start items, json => by
    rw [Node.value]
    refine (Gives.anything _).bind fun inner _ => ?_
    exact (Items.values_gives inner items json).bind fun _ each => Gives.ok each
  | .object start members, json => by
    rw [Node.value]
    refine (Gives.anything _).bind fun inner _ => ?_
    exact (Members.values_gives inner members json).bind fun _ each => Gives.ok each

theorem Items.values_gives (origin : Origin) : (items : Items) → items.AreJson →
    Gives (EachItem Number.IsJson) (items.values origin)
  | .closed _, _ => Gives.ok trivial
  | .broken read _, _ => Gives.error read
  | .item _ node rest, json => by
    rw [Items.values]
    refine (Node.value_gives origin node json.1).bind fun v first => ?_
    exact (Items.values_gives origin rest json.2).bind fun _ others => Gives.ok ⟨first, others⟩

theorem Members.values_gives (origin : Origin) : (members : Members) → members.AreJson →
    Gives (EachMember Number.IsJson) (members.values origin)
  | .closed _, _ => Gives.ok trivial
  | .broken read _, _ => Gives.error read
  | .member key _ node rest, json => by
    rw [Members.values]
    refine (Gives.anything key).bind fun name _ => ?_
    refine (Node.value_gives origin node json.1).bind fun v first => ?_
    exact (Members.values_gives origin rest json.2).bind fun _ others => Gives.ok ⟨first, others⟩

end

/-! ## Walks -/

theorem Items.mapRead_gives {p : α → Prop} {read : Node → Except Fault α}
    (reads : ∀ node : Node, node.IsJson → Gives p (read node)) :
    {items : Items} → items.AreJson → Gives (fun results => ∀ a ∈ results, p a) (items.mapRead read)
  | .closed _, _ => Gives.ok (by simp)
  | .broken fault _, _ => Gives.error fault
  | .item _ node rest, json => by
    rw [Items.mapRead]
    refine (reads node json.1).bind fun a first => ?_
    refine (Items.mapRead_gives reads json.2).bind fun others all => ?_
    exact Gives.ok (List.forall_mem_cons.mpr ⟨first, all⟩)

/-- What every member keeps holds at the end of a walk. -/
theorem Members.fold_gives {p : β → Prop} {step : β → String → Nat → Node → Except Fault β}
    (keeps : ∀ known key standing, ∀ node : Node, p known → node.IsJson →
      Gives p (step known key standing node)) :
    {members : Members} → members.AreJson → {known : β} → p known →
      Gives (fun ending => p ending.1) (members.fold step known)
  | .closed _, _, _, holds => Gives.ok holds
  | .broken fault _, _, _, _ => Gives.error fault
  | .member key standing node rest, json, known, holds => by
    rw [Members.fold]
    refine (Gives.anything key).bind fun name _ => ?_
    refine (keeps known name standing node holds json.1).bind fun next kept => ?_
    exact Members.fold_gives keeps json.2 kept

theorem Node.list_gives {p : α → Prop} {read : Origin → Node → Except Fault α}
    (reads : ∀ inner, ∀ node : Node, node.IsJson → Gives p (read inner node)) (origin : Origin)
    {node : Node} (json : node.IsJson) :
    Gives (fun results => ∀ a ∈ results, p a) (node.list origin read) := by
  cases node with
  | array start items =>
      refine (Gives.anything _).bind fun inner _ => ?_
      exact Items.mapRead_gives (reads inner) json
  | _ => exact Gives.error _

theorem Node.optional_gives {p : α → Prop} {read : Node → Except Fault α} {node : Node}
    (reads : Gives p (read node)) : Gives (fun found => ∀ a ∈ found, p a) (node.optional read) := by
  rw [Node.optional.eq_def]
  split
  · exact Gives.ok (by simp)
  · exact Gives.map (reads.mono (by simp))

theorem fill_gives {p : α → Prop} {slot : Option α} {read : Except Fault α} (reads : Gives p read)
    (key : String) (standing : Nat) :
    Gives (fun filled => ∀ a ∈ filled, p a) (fill slot key standing read) := by
  rw [fill.eq_def]
  split
  · exact Gives.error _
  · exact Gives.map (reads.mono (by simp))

/-! ## Records in arrays -/

theorem Items.required_gives {p : α → Prop} {read : Node → Except Fault α}
    (reads : ∀ node : Node, node.IsJson → Gives p (read node)) {items : Items}
    (json : items.AreJson) (index : Nat) (expected : String) :
    Gives (fun next => p next.1 ∧ next.2.AreJson) (items.required index expected read) := by
  cases items with
  | item seen node rest => exact Gives.map ((reads node json.1).mono fun a holds => ⟨holds, json.2⟩)
  | _ => exact Gives.error _

theorem Items.orDefault_gives {p : α → Prop} {read : Node → Except Fault α}
    (reads : ∀ node : Node, node.IsJson → Gives p (read node)) {default : α} (holds : p default)
    {items : Items} (json : items.AreJson) :
    Gives (fun next => p next.1 ∧ next.2.AreJson) (items.orDefault default read) := by
  cases items with
  | closed stop => exact Gives.ok ⟨holds, trivial⟩
  | broken fault skip => exact Gives.error _
  | item seen node rest => exact Gives.map ((reads node json.1).mono fun a holds => ⟨holds, json.2⟩)

end Json

end BlockForge
