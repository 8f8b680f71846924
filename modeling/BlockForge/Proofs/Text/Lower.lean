/-
# What lower case leaves behind

Lower case either leaves a character alone or puts characters in its place that it leaves alone
from then on. None of these has the upper-case property and none separates words, so a text in
lower case has no place at which another pass would set words apart.

For the letters of ASCII this is arithmetic. For all others it is a fact about the tables: the
images of a run of characters are a run themselves, and such a run is kept apart from every run of
characters that change and from every span of upper-case characters. Most of these are seen to be
elsewhere by their ends. The few that overlap are the two cases of one alphabet taking turns, so
that one of them has the even code points and the other one the odd ones.
-/

import BlockForge.Text.Words
import Mathlib.Data.List.Chain
import Mathlib.Data.List.TakeWhile
import Mathlib.Tactic.MkIffOfInductiveProp

namespace BlockForge.Text

open CaseTable

/-! ## Spans of code points -/

namespace CaseTable.Span

variable {s t : Span} {code : Nat} {spans : List Span}

/-- Whether all code points of a span are even or all are odd. -/
def oneParity (s : Span) : Bool := s.step % 2 == 0 || s.first == s.last

/-- Whether the code points of one span are even and those of another one are odd. -/
def alternates (s t : Span) : Bool := s.oneParity && t.oneParity && s.first % 2 != t.first % 2

/-- The spans of an ascending list that reach into a span. -/
def reaching (s : Span) (spans : List Span) : List Span :=
  (spans.dropWhile fun t => Nat.blt t.last s.first).takeWhile fun t => Nat.ble t.first s.last

/-- Whether a span is seen to have no code point in common with any of an ascending list. -/
def apart (s : Span) (spans : List Span) : Bool := (s.reaching spans).all s.alternates

def Ascending (spans : List Span) : Prop := spans.IsChain (·.first ≤ ·.first)

instance (spans : List Span) : Decidable (Ascending spans) :=
  inferInstanceAs (Decidable (spans.IsChain _))

theorem covers_iff :
    s.covers code ↔ (s.first ≤ code ∧ code ≤ s.last) ∧ (code - s.first) % s.step = 0 := by
  simp [covers]

theorem parity_of_covers (one : s.oneParity) (held : s.covers code) :
    code % 2 = s.first % 2 := by
  obtain ⟨⟨lower, upper⟩, steps⟩ := covers_iff.mp held
  simp only [oneParity, Bool.or_eq_true, beq_iff_eq] at one
  rcases one with even | single
  · have far : 2 ∣ code - s.first :=
      Nat.dvd_trans (Nat.dvd_of_mod_eq_zero even) (Nat.dvd_of_mod_eq_zero steps)
    omega
  · rw [Nat.le_antisymm (single ▸ upper) lower]

theorem not_covers_of_alternates (alternate : s.alternates t) (held : s.covers code) :
    t.covers code = false := by
  rw [Bool.eq_false_iff]
  intro heldToo
  simp only [alternates, Bool.and_eq_true, bne_iff_ne] at alternate
  obtain ⟨⟨one, oneToo⟩, other⟩ := alternate
  exact other ((parity_of_covers one held).symm.trans (parity_of_covers oneToo heldToo))

/-- Where spans ascend, all that begin up to a code point stand in front. -/
theorem mem_takeWhile_of_pairwise (ascending : spans.Pairwise (·.first ≤ ·.first))
    (among : t ∈ spans) {bound : Nat} (inside : t.first ≤ bound) :
    t ∈ spans.takeWhile fun t => Nat.ble t.first bound := by
  induction spans with
  | nil => cases among
  | cons first rest ih =>
      obtain ⟨before, later⟩ := List.pairwise_cons.mp ascending
      have begins : first.first ≤ bound := by
        rcases List.mem_cons.mp among with rfl | behind
        · exact inside
        · exact Nat.le_trans (before t behind) inside
      rw [List.takeWhile_cons, Nat.ble_eq.mpr begins, if_pos rfl]
      rcases List.mem_cons.mp among with rfl | behind
      · exact List.mem_cons_self
      · exact List.mem_cons_of_mem _ (ih later behind)

theorem mem_reaching (ascending : Ascending spans) (among : t ∈ spans) (held : s.covers code)
    (heldToo : t.covers code) : t ∈ s.reaching spans := by
  obtain ⟨⟨lower, upper⟩, -⟩ := covers_iff.mp held
  obtain ⟨⟨lowerToo, upperToo⟩, -⟩ := covers_iff.mp heldToo
  have pairs : spans.Pairwise (·.first ≤ ·.first) := by
    have trans : Trans (fun s t : Span => s.first ≤ t.first) (fun s t : Span => s.first ≤ t.first)
        (fun s t : Span => s.first ≤ t.first) := ⟨Nat.le_trans⟩
    exact List.isChain_iff_pairwise.mp ascending
  refine mem_takeWhile_of_pairwise (pairs.sublist (List.dropWhile_sublist _)) ?_
    (Nat.le_trans lowerToo upper)
  rw [← List.takeWhile_append_dropWhile (p := fun t => Nat.blt t.last s.first) (l := spans)]
    at among
  rcases List.mem_append.mp among with dropped | kept
  · have below := List.mem_takeWhile_imp (p := fun t : Span => Nat.blt t.last s.first) dropped
    rw [Nat.blt_eq] at below
    omega
  · exact kept

theorem not_covers_of_apart (separate : s.apart spans) (ascending : Ascending spans)
    (among : t ∈ spans) (held : s.covers code) : t.covers code = false := by
  rw [Bool.eq_false_iff]
  intro heldToo
  have near := mem_reaching ascending among held heldToo
  rw [not_covers_of_alternates (List.all_eq_true.mp separate t near) held] at heldToo
  cases heldToo

end CaseTable.Span

namespace CaseTable.Run

variable {run : Run} {code : Nat}

def domain (run : Run) : Span := ⟨run.first, run.last, run.step⟩

def image (run : Run) : Span :=
  ⟨(run.first + run.shift).toNat, (run.last + run.shift).toNat, run.step⟩

theorem image_covers (within : 0 ≤ run.first + run.shift) (held : run.covers code) :
    run.image.covers (code + run.shift).toNat := by
  obtain ⟨⟨lower, upper⟩, steps⟩ := Span.covers_iff (s := run.domain).mp held
  simp only [domain] at lower upper steps
  have far : (code + run.shift).toNat - (run.first + run.shift).toNat = code - run.first := by
    omega
  refine Span.covers_iff.mpr ⟨⟨?_, ?_⟩, ?_⟩
  · simp only [image]
    omega
  · simp only [image]
    omega
  · simpa only [image, far] using steps

end CaseTable.Run

/-! ## Characters in lower case -/

/-- Whether a character stands between the words of a name. -/
def isSeparator (c : Char) : Bool := c == '_' || c == '-'

/-- A character that lower case may put in the place of another one. -/
@[mk_iff]
structure Lowered (c : Char) : Prop where
  lower : Text.lower c = [c]
  isUpper : Text.isUpper c = false
  notSeparator : isSeparator c = false

instance (c : Char) : Decidable (Lowered c) := decidable_of_iff' _ (lowered_iff c)

/-- Whether the tables tell of each image of a run that it is in lower case. -/
def CaseTable.Run.endsLowered (run : Run) : Bool :=
  0 ≤ run.first + run.shift && 0x80 ≤ run.image.first
    && (run.image.last < 0xD800 || (0xDFFF < run.image.first && run.image.last < 0x110000))
    && lowerLong.all (fun (code, _) => !run.image.covers code)
    && run.image.apart (lowerRuns.map Run.domain)
    && run.image.apart upperSpans

/-- What the tables say. The Kelvin sign stands for the runs whose only image is a letter of
ASCII, about which the tables are not asked. -/
@[mk_iff]
structure TablesSettle : Prop where
  changing : Span.Ascending (lowerRuns.map Run.domain)
  capitals : Span.Ascending upperSpans
  runs : lowerRuns.all fun run => run.endsLowered ||
    (run.first == run.last && Lowered (Char.ofNat (run.first + run.shift).toNat))
  long : lowerLong.all fun (_, image) => image ≠ [] ∧ image.all fun code => Lowered (.ofNat code)
  letters : (List.range 0x80).all fun code =>
    (Char.ofNat code).isUpper → Lowered (Char.ofNat code).toLower

instance : Decidable TablesSettle := decidable_of_iff' _ tablesSettle_iff

theorem tablesSettle : TablesSettle := by decide +kernel

theorem toNat_ofNat_of_valid {code : Nat} (valid : code.isValidChar) :
    (Char.ofNat code).toNat = code := by
  rw [Char.ofNat, dif_pos valid]
  rfl

theorem isSeparator_of_large {c : Char} (large : 0x80 ≤ c.toNat) : isSeparator c = false := by
  rw [isSeparator, Bool.or_eq_false_iff, beq_eq_false_iff_ne, beq_eq_false_iff_ne]
  constructor
  · rintro rfl
    exact absurd large (by decide)
  · rintro rfl
    exact absurd large (by decide)

/-- The image of a character of a run is in lower case if the tables tell so. -/
theorem lowered_of_endsLowered {run : Run} (told : run.endsLowered) {code : Nat}
    (held : run.covers code) : Lowered (Char.ofNat (code + run.shift).toNat) := by
  simp only [Run.endsLowered, Bool.and_eq_true, Bool.or_eq_true, decide_eq_true_eq,
    List.all_eq_true, Bool.not_eq_true'] at told
  obtain ⟨⟨⟨⟨⟨within, large⟩, valid⟩, notLong⟩, notChanging⟩, notCapital⟩ := told
  have covered := Run.image_covers within held
  obtain ⟨⟨lower, upper⟩, -⟩ := Span.covers_iff.mp covered
  generalize (code + run.shift).toNat = image at covered lower upper ⊢
  have own : (Char.ofNat image).toNat = image :=
    toNat_ofNat_of_valid (by rw [Nat.isValidChar]; omega)
  refine ⟨?_, ?_, isSeparator_of_large (by omega)⟩
  · have noLong : lowerLong.lookup image = none := by
      refine List.lookup_eq_none_iff.mpr fun pair among => bne_iff_ne.mpr ?_
      rintro rfl
      rw [notLong pair among] at covered
      cases covered
    have noRun : lowerRuns.find? (·.covers image) = none :=
      List.find?_eq_none.mpr fun other among => Bool.eq_false_iff.mp
        (Span.not_covers_of_apart (t := other.domain) notChanging tablesSettle.changing
          (List.mem_map_of_mem among) covered)
    rw [Text.lower, own, if_neg (by omega), mapCase, own, noLong, noRun]
  · rw [Text.isUpper, own, if_neg (by omega), List.any_eq_false]
    intro span among
    exact Bool.eq_false_iff.mp
      (Span.not_covers_of_apart notCapital tablesSettle.capitals among covered)

theorem lowered_of_run {run : Run} (among : run ∈ lowerRuns) {code : Nat}
    (held : run.covers code) : Lowered (Char.ofNat (code + run.shift).toNat) := by
  have told := List.all_eq_true.mp tablesSettle.runs run among
  simp only [Bool.or_eq_true, Bool.and_eq_true, beq_iff_eq, decide_eq_true_eq] at told
  rcases told with ends | ⟨single, own⟩
  · exact lowered_of_endsLowered ends held
  · obtain ⟨⟨lower, upper⟩, -⟩ := Span.covers_iff (s := run.domain).mp held
    rwa [show code = run.first from Nat.le_antisymm (upper.trans_eq single.symm) lower]

/-- The letters of ASCII, whose case is arithmetic. -/
theorem lowered_toLower {c : Char} (small : c.toNat < 0x80) (capital : c.isUpper) :
    Lowered c.toLower := by
  have told := List.all_eq_true.mp tablesSettle.letters c.toNat (List.mem_range.mpr small)
  rw [Char.ofNat_toNat, decide_eq_true_eq] at told
  exact told capital

/-- Lower case leaves a character alone, or else all that it puts in its place is in lower case. -/
theorem lower_cases (c : Char) : lower c = [c] ∨ lower c ≠ [] ∧ ∀ d ∈ lower c, Lowered d := by
  by_cases small : c.toNat < 0x80
  · rw [lower, if_pos small]
    by_cases capital : c.isUpper
    · exact .inr ⟨List.cons_ne_nil _ _, by simpa using lowered_toLower small capital⟩
    · have kept : c.toLower = c := dif_neg fun bounds => capital (decide_eq_true bounds)
      exact .inl (by rw [kept])
  · rw [lower, if_neg small, mapCase]
    split
    · rename_i image found
      obtain ⟨front, back, split, -⟩ := List.lookup_eq_some_iff.mp found
      have told := List.all_eq_true.mp tablesSettle.long (c.toNat, image) (by simp [split])
      simp only [decide_eq_true_eq, List.all_eq_true] at told
      exact .inr ⟨by simpa using told.1, by simpa using told.2⟩
    · split
      · rename_i run found
        have held : run.covers c.toNat :=
          List.find?_some (p := fun run : Run => run.covers c.toNat) found
        have own := lowered_of_run (List.mem_of_find?_eq_some found) held
        exact .inr ⟨List.cons_ne_nil _ _, by simpa using own⟩
      · exact .inl rfl

end BlockForge.Text
