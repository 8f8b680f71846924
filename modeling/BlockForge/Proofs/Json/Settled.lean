/-
# Values that stay as they are

The stored form of a stored form is the same stored form, so a value that was stored changes only
by its doubles when it is written, read and stored again. It stays as it is if its own text is read
as itself, and otherwise it becomes, after any number of such rounds, what the numbers of its doubles
become after as many.
-/

import BlockForge.Proofs.Json.Layout

namespace BlockForge.Json

/-! ## Stored forms -/

/-- Members that are in order already are put one after the other. -/
theorem insertMember_of_last {α : Type} {key : String} {members : List (String × α)}
    (above : ∀ member ∈ members, member.1 < key) (value : α) :
    insertMember key value members = members ++ [(key, value)] := by
  induction members with
  | nil => rfl
  | cons first rest ih =>
      obtain ⟨other, held⟩ := first
      have before : other < key := above (other, held) List.mem_cons_self
      rw [insertMember, if_neg before.not_gt, if_neg before.ne',
        ih fun member later => above member (List.mem_cons_of_mem _ later)]
      rfl

theorem sortInto_of_increasing {α : Type} {sorted members : List (String × α)}
    (increasing : Increasing (sorted ++ members)) : sortInto sorted members = sorted ++ members := by
  induction members generalizing sorted with
  | nil => rw [List.append_nil]; rfl
  | cons first rest ih =>
      have last : ∀ member ∈ sorted, member.1 < first.1 := fun member earlier =>
        (List.pairwise_append.mp increasing).2.2 member earlier first List.mem_cons_self
      have split : sorted ++ first :: rest = (sorted ++ [first]) ++ rest := by simp
      rw [split] at increasing ⊢
      show sortInto (insertMember first.1 first.2 sorted) rest = _
      rw [insertMember_of_last last]
      exact ih increasing

theorem sortMembers_of_increasing {α : Type} {members : List (String × α)}
    (increasing : Increasing members) : sortMembers members = members := by
  have sorted : sortInto [] members = [] ++ members := sortInto_of_increasing increasing
  exact sorted

theorem increasing_sortInto {α : Type} {members sorted : List (String × α)}
    (increasing : Increasing sorted) : Increasing (sortInto sorted members) := by
  induction members generalizing sorted with
  | nil => exact increasing
  | cons first rest ih => exact ih (increasing_insertMember first.1 first.2 increasing)

theorem increasing_sortMembers {α : Type} (members : List (String × α)) :
    Increasing (sortMembers members) :=
  increasing_sortInto List.Pairwise.nil

/-- The order of members of distinct keys does not matter to their sorted form. -/
theorem sortMembers_eq_of_perm {α : Type} {members others : List (String × α)}
    (perm : members.Perm others) (distinct : (keysOf others).Nodup) :
    sortMembers members = sortMembers others := by
  have same : (sortMembers members).Perm (sortMembers others) :=
    (sortMembers_perm ((perm.map (·.1)).nodup_iff.mpr distinct)).trans
      (perm.trans (sortMembers_perm distinct).symm)
  apply same.eq_of_pairwise ?_ (increasing_sortMembers members) (increasing_sortMembers others)
  intro first second _ _ before after
  exact absurd before after.not_gt

mutual

/-- A stored form is its own stored form. -/
theorem Value.canonical_canonical : (v : Value) → v.canonical.canonical = v.canonical
  | .null => rfl
  | .bool _ => rfl
  | .string _ => rfl
  | .number (.unsigned _) => rfl
  | .number (.signed _) => rfl
  | .number (.float x) => by
    by_cases finite : x.isFinite
    · rw [Value.canonical, if_pos finite, Value.canonical, if_pos finite]
    · rw [Value.canonical, if_neg finite]
      rfl
  | .array items => congrArg Value.array (canonicalItems_canonicalItems items)
  | .object members => by
    have kept : canonicalMembers (sortMembers (canonicalMembers members)) =
        sortMembers (canonicalMembers members) := by
      rw [canonicalMembers_eq_map]
      refine (List.map_congr_left fun member held => ?_).trans (List.map_id _)
      exact Prod.ext rfl (canonical_of_mem_canonicalMembers members member (mem_sortMembers held))
    rw [Value.canonical, Value.canonical, kept,
      sortMembers_of_increasing (increasing_sortMembers _)]

theorem canonicalItems_canonicalItems : (items : List Value) →
    canonicalItems (canonicalItems items) = canonicalItems items
  | [] => rfl
  | item :: rest =>
    congrArg₂ List.cons item.canonical_canonical (canonicalItems_canonicalItems rest)

theorem canonical_of_mem_canonicalMembers : (members : List (String × Value)) →
    ∀ member ∈ canonicalMembers members, member.2.canonical = member.2
  | [] => by simp [canonicalMembers]
  | (key, v) :: rest => by
    intro member held
    rcases List.mem_cons.mp held with rfl | later
    · exact v.canonical_canonical
    · exact canonical_of_mem_canonicalMembers rest member later

end

/-! ## Values that are read back -/

/-- A number that is read from its own digits. -/
def Number.Kept : Number → Prop
  | .float x => x.isFinite ∧ x.reread = x
  | _ => True

mutual

theorem Value.reread_eq_self_iff : (v : Value) → (v.reread = v ↔ v.Each Number.Kept)
  | .null => iff_of_true rfl trivial
  | .bool _ => iff_of_true rfl trivial
  | .string _ => iff_of_true rfl trivial
  | .number (.unsigned _) => iff_of_true rfl trivial
  | .number (.signed _) => iff_of_true rfl trivial
  | .number (.float x) => by
    rw [Value.reread, Value.withFloats, Value.Each, Number.Kept]
    split
    · rename_i finite
      simp [Value.ofFloat, finite]
    · rename_i infinite
      simp [infinite]
  | .array items => by
    rw [Value.Each, ← itemsWithFloats_eq_self_iff items, Value.reread, Value.withFloats,
      Value.array.injEq]
  | .object members => by
    rw [Value.Each, ← membersWithFloats_eq_self_iff members, Value.reread, Value.withFloats,
      Value.object.injEq]

theorem itemsWithFloats_eq_self_iff : (items : List Value) →
    (itemsWithFloats Binary64.reread items = items ↔ EachItem Number.Kept items)
  | [] => iff_of_true rfl trivial
  | item :: rest => by
    rw [itemsWithFloats, List.cons.injEq, EachItem, itemsWithFloats_eq_self_iff rest]
    exact and_congr_left' item.reread_eq_self_iff

theorem membersWithFloats_eq_self_iff : (members : List (String × Value)) →
    (membersWithFloats Binary64.reread members = members ↔ EachMember Number.Kept members)
  | [] => iff_of_true rfl trivial
  | (key, v) :: rest => by
    rw [membersWithFloats, List.cons.injEq, EachMember, membersWithFloats_eq_self_iff rest,
      Prod.mk.injEq, eq_self, true_and]
    exact and_congr_left' v.reread_eq_self_iff

end

/-- A value is read from its own text. -/
def Value.ReadsBack (v : Value) : Prop := Value.ofText v.prettyText.toList = .ok v

/-- The text of a value is read as the value with its doubles read anew. -/
theorem Value.ofText_prettyText {v : Value} (inRange : v.InRange) (shallow : v.depth < 128) :
    Value.ofText v.prettyText.toList = .ok v.reread := by
  obtain ⟨holds, ends⟩ := Document.ofText_prettyAt inRange
  have admits : Origin.text.Admits v.reread.depth :=
    Origin.admits_text (Nat.lt_of_le_of_lt (rearranging_reread.depth v) shallow)
  rw [Value.ofText, readText, Value.prettyText, String.toList_ofList, holds.value admits, ends]
  rfl

/-- A value is read from its own text if each of its doubles is read from its own digits. -/
theorem Value.readsBack_iff {v : Value} (inRange : v.InRange) (shallow : v.depth < 128) :
    v.ReadsBack ↔ v.Each Number.Kept := by
  rw [← v.reread_eq_self_iff, ReadsBack, ofText_prettyText inRange shallow, Except.ok.injEq]

theorem Value.ReadsBack.reread {v : Value} (readsBack : v.ReadsBack) (inRange : v.InRange)
    (shallow : v.depth < 128) : v.reread = v :=
  v.reread_eq_self_iff.mpr ((readsBack_iff inRange shallow).mp readsBack)

/-! ## Rounds of writing and reading -/

/-- A value after it was written, read and stored. -/
def Value.restored (v : Value) : Value := v.reread.canonical

theorem rearranging_restored : Rearranging Binary64.reread Value.restored :=
  rearranging_canonical.comp rearranging_reread

/-- A stored form after some rounds. -/
theorem rearranging_iterate_restored (rounds : Nat) :
    Rearranging Binary64.reread^[rounds] fun v => Value.restored^[rounds] v.canonical := by
  induction rounds with
  | zero => exact rearranging_canonical
  | succ rounds ih =>
      rw [Function.iterate_succ', Function.iterate_succ']
      exact rearranging_restored.comp ih

end BlockForge.Json
