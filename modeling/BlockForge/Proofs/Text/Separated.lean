/-
# Setting words apart again

The spellings of a name with underscores and with dashes are one text but for the separator, and
setting apart the words of a text that is set apart already does nothing but choose the separator
anew. The second pass sees other characters than the first one and sees them elsewhere, as one
character may become several. What both passes share at every place is whether a word stands in
front of it, and the second pass meets no other upper-case characters than those that the first
pass left alone, with a separator in front of them wherever a word stands there.
-/

import BlockForge.Proofs.Text.Lower

namespace BlockForge.Text

variable {a b c : Char} {x y : Option Char} {front text : List Char}

/-! ## One character at a time -/

/-- Whether an upper-case character opens another word behind the last character written. -/
def behindWord (separator : Char) (last : Option Char) : Bool := last.any (· != separator)

theorem behindWord_self (separator : Char) : behindWord separator (some separator) = false := by
  simp [behindWord]

/-- A character that separates no words is part of one. -/
theorem behindWord_of_not_isSeparator (separates : isSeparator a) (other : isSeparator c = false) :
    behindWord a (some c) = true := by
  rw [behindWord, Option.any_some, bne_iff_ne]
  rintro rfl
  rw [separates] at other
  cases other

theorem separatedFrom_separator (separates : isSeparator c) (rest : List Char) :
    separatedFrom a x (c :: rest) = a :: separatedFrom a (some a) rest := by
  rw [isSeparator] at separates
  rw [separatedFrom, if_pos separates]

theorem separatedFrom_other (other : isSeparator c = false) (rest : List Char) :
    separatedFrom a x (c :: rest) =
      (if isUpper c && behindWord a x then [a] else []) ++
        (lower c ++ separatedFrom a (lower c).getLast? rest) := by
  rw [isSeparator] at other
  rw [separatedFrom, if_neg (by rw [other]; exact Bool.false_ne_true), List.append_assoc]
  rfl

/-- No lower-case image of a part of a word separates words. -/
theorem not_isSeparator_of_mem_lower (other : isSeparator c = false) {d : Char}
    (among : d ∈ lower c) : isSeparator d = false := by
  rcases lower_cases c with same | ⟨-, lowered⟩
  · rw [same, List.mem_singleton] at among
    rwa [among]
  · exact (lowered d among).notSeparator

/-- Behind the image of a part of a word, a word stands in front for every separator. -/
theorem behindWord_getLast?_lower (separates : isSeparator a) (other : isSeparator c = false) :
    behindWord a (lower c).getLast? = true := by
  have there : lower c ≠ [] := by
    rcases lower_cases c with same | ⟨there, -⟩
    · rw [same]
      exact List.cons_ne_nil _ _
    · exact there
  rw [List.getLast?_eq_some_getLast there]
  exact behindWord_of_not_isSeparator separates
    (not_isSeparator_of_mem_lower other (List.getLast_mem there))

/-! ## What has been set apart before -/

theorem separatedFrom_lowered_append (lowered : ∀ d ∈ front, Lowered d) (there : front ≠ [])
    (rest : List Char) :
    separatedFrom a x (front ++ rest) = front ++ separatedFrom a front.getLast? rest := by
  induction front generalizing x with
  | nil => exact absurd rfl there
  | cons d later ih =>
      obtain ⟨own, others⟩ := List.forall_mem_cons.mp lowered
      rw [List.cons_append, separatedFrom_other own.notSeparator, own.isUpper, own.lower,
        Bool.false_and, if_neg Bool.false_ne_true, List.nil_append, List.singleton_append]
      cases later with
      | nil => rfl
      | cons e later =>
          rw [List.getLast?_singleton, ih others (List.cons_ne_nil _ _),
            List.getLast?_cons_cons]
          rfl

/-- The image of a part of a word is written once more as it stands, unless it is an upper-case
character that has to be set apart. -/
theorem separatedFrom_lower_append (other : isSeparator c = false)
    (fits : isUpper c → behindWord a x = false) (rest : List Char) :
    separatedFrom a x (lower c ++ rest) =
      lower c ++ separatedFrom a (lower c).getLast? rest := by
  rcases lower_cases c with same | ⟨there, lowered⟩
  · have noGap : (isUpper c && behindWord a x) = false := by
      cases capital : isUpper c with
      | false => rfl
      | true => exact fits capital
    rw [same, List.singleton_append, separatedFrom_other other, noGap,
      if_neg Bool.false_ne_true, List.nil_append, same, List.singleton_append]
  · exact separatedFrom_lowered_append lowered there rest

/-- Setting apart what is set apart is setting apart with the new separator. -/
theorem separatedFrom_separatedFrom (separates : isSeparator a) (separatesToo : isSeparator b)
    (alike : behindWord a x = behindWord b y) (text : List Char) :
    separatedFrom a x (separatedFrom b y text) = separatedFrom a x text := by
  induction text generalizing x y with
  | nil => rfl
  | cons c rest ih =>
      cases own : isSeparator c with
      | true =>
          rw [separatedFrom_separator own, separatedFrom_separator separatesToo,
            separatedFrom_separator own, ih ((behindWord_self a).trans (behindWord_self b).symm)]
      | false =>
          have onward := ih ((behindWord_getLast?_lower separates own).trans
            (behindWord_getLast?_lower separatesToo own).symm)
          rw [separatedFrom_other own, separatedFrom_other own, ← alike]
          cases gap : isUpper c && behindWord a x with
          | true =>
              -- The separator of the first pass keeps the second one from writing another.
              rw [if_pos rfl, if_pos rfl, List.singleton_append, List.singleton_append,
                separatedFrom_separator separatesToo,
                separatedFrom_lower_append own fun _ => behindWord_self a, onward]
          | false =>
              have fits (capital : isUpper c) : behindWord a x = false := by
                rwa [capital, Bool.true_and] at gap
              rw [if_neg Bool.false_ne_true, if_neg Bool.false_ne_true, List.nil_append,
                List.nil_append, separatedFrom_lower_append own fits, onward]

/-- Respelling separators leaves the parts of words alone. -/
theorem respelled_lower (separates : isSeparator a) (other : isSeparator c = false) :
    (lower c).map (fun d => if d = a then b else d) = lower c := by
  refine (List.map_congr_left fun d among => ?_).trans (List.map_id _)
  rw [if_neg]
  · rfl
  · rintro rfl
    rw [not_isSeparator_of_mem_lower other among] at separates
    cases separates

/-- A text with one separator is the text with the other one, respelled. -/
theorem separatedFrom_eq_map (separates : isSeparator a) (separatesToo : isSeparator b)
    (alike : behindWord a x = behindWord b y) (text : List Char) :
    separatedFrom b y text = (separatedFrom a x text).map fun c => if c = a then b else c := by
  induction text generalizing x y with
  | nil => rfl
  | cons c rest ih =>
      cases own : isSeparator c with
      | true =>
          rw [separatedFrom_separator own, separatedFrom_separator own, List.map_cons, if_pos rfl,
            ← ih ((behindWord_self a).trans (behindWord_self b).symm)]
      | false =>
          have onward := ih ((behindWord_getLast?_lower separates own).trans
            (behindWord_getLast?_lower separatesToo own).symm)
          rw [separatedFrom_other own, separatedFrom_other own, ← alike, onward, List.map_append,
            List.map_append, respelled_lower separates own]
          split
          · simp
          · rfl

/-! ## The spellings of a name -/

/-- The two spellings differ in their separator only, and respelling a name that is respelled
already comes to respelling the name itself. -/
theorem respelled_spellings (name : String) :
    kebabCase name = (snakeCase name).map (fun c => if c = '_' then '-' else c) ∧
      snakeCase (snakeCase name) = snakeCase name ∧
      kebabCase (kebabCase name) = kebabCase name ∧
      snakeCase (kebabCase name) = snakeCase name ∧
      kebabCase (snakeCase name) = kebabCase name := by
  have again {a b : Char} (separates : isSeparator a) (separatesToo : isSeparator b) :
      separatedFrom a none (separatedFrom b none name.toList) = separatedFrom a none name.toList :=
    separatedFrom_separatedFrom separates separatesToo rfl name.toList
  refine ⟨?_, ?_, ?_, ?_, ?_⟩
  · apply String.toList_inj.mp
    rw [String.toList_map, kebabCase, snakeCase, String.toList_ofList, String.toList_ofList]
    exact separatedFrom_eq_map (a := '_') (b := '-') rfl rfl rfl name.toList
  · rw [snakeCase, snakeCase, String.toList_ofList, again rfl rfl]
  · rw [kebabCase, kebabCase, String.toList_ofList, again rfl rfl]
  · rw [snakeCase, snakeCase, kebabCase, String.toList_ofList, again rfl rfl]
  · rw [kebabCase, kebabCase, snakeCase, String.toList_ofList, again rfl rfl]

end BlockForge.Text
