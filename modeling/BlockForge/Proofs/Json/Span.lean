/-
# Where the span of a fault points

A fault is told with a line and a column, which count the newlines and the bytes taken in, and its
span is found again from these two numbers. The bytes of the lines before are added up for that,
so the line and the column have to lead back to the place that they were counted at. They do, at
every byte of a text and inside characters too, and the span is the last byte taken in on the
line, or the start of the line where none was.
-/

import BlockForge.Block.Loading
import Mathlib.Data.List.DropRight

namespace BlockForge.Json

variable {text : List Char} {front : List UInt8} {c : Char}

/-! ## Texts in bytes -/

def bytes (text : List Char) : List UInt8 := text.flatMap String.utf8EncodeChar

def lineFeed : UInt8 := 10

/-- The line that is reached behind some bytes. -/
def lineAfter (front : List UInt8) : Nat := 1 + front.count lineFeed

/-- The number of bytes behind the last newline. -/
def columnAfter (front : List UInt8) : Nat := (front.rtakeWhile (· != lineFeed)).length

theorem bytes_cons (c : Char) (rest : List Char) :
    bytes (c :: rest) = String.utf8EncodeChar c ++ bytes rest := List.flatMap_cons

theorem length_bytes (text : List Char) : (bytes text).length = byteLength text := by
  have shifted (start : Nat) : text.foldl (fun n c => n + c.utf8Size) start =
      start + (bytes text).length := by
    induction text generalizing start with
    | nil => rfl
    | cons c rest ih =>
        rw [List.foldl_cons, ih, bytes_cons, List.length_append, String.length_utf8EncodeChar,
          Nat.add_assoc]
  rw [byteLength, shifted, Nat.zero_add]

theorem byteLength_cons (c : Char) (rest : List Char) :
    byteLength (c :: rest) = c.utf8Size + byteLength rest := by
  rw [← length_bytes, ← length_bytes, bytes_cons, List.length_append, String.length_utf8EncodeChar]

/-- A newline is one byte, and no other character holds that byte. -/
theorem lineFeed_notMem_utf8EncodeChar (other : c ≠ '\n') :
    lineFeed ∉ String.utf8EncodeChar c := by
  have large {n : Nat} (high : 128 ≤ n % 256) : lineFeed ≠ UInt8.ofNat n := by
    intro same
    have value : 10 = n % 256 := congrArg UInt8.toNat same
    omega
  have own : c.val.toNat ≠ 10 := fun same => other (Char.ext (UInt32.toNat_inj.mp same))
  rw [String.utf8EncodeChar]
  split
  · rename_i small
    intro held
    have value : 10 = c.val.toNat % 256 :=
      congrArg UInt8.toNat (List.mem_singleton.mp held)
    omega
  · split
    · simp only [List.mem_cons, List.not_mem_nil, or_false, not_or]
      exact ⟨large (by omega), large (by omega)⟩
    · split
      · simp only [List.mem_cons, List.not_mem_nil, or_false, not_or]
        exact ⟨large (by omega), large (by omega), large (by omega)⟩
      · simp only [List.mem_cons, List.not_mem_nil, or_false, not_or]
        exact ⟨large (by omega), large (by omega), large (by omega), large (by omega)⟩

theorem columnAfter_eq_zero_iff :
    columnAfter front = 0 ↔ front = [] ∨ front.getLast? = some lineFeed := by
  rw [columnAfter, List.length_eq_zero_iff, List.rtakeWhile_eq_nil_iff]
  cases front using List.reverseRecOn with
  | nil => simp
  | append_singleton front byte => simp

/-! ## Lines and columns count bytes -/

/-- The line and the column behind one more byte. -/
def stride (place : Nat × Nat) (byte : UInt8) : Nat × Nat :=
  if byte = lineFeed then (place.1 + 1, 0) else (place.1, place.2 + 1)

theorem foldl_stride_of_notMem (inside : lineFeed ∉ front) (line column : Nat) :
    front.foldl stride (line, column) = (line, column + front.length) := by
  induction front generalizing column with
  | nil => rfl
  | cons byte rest ih =>
      rw [List.mem_cons, not_or] at inside
      rw [List.foldl_cons, stride, if_neg (Ne.symm inside.1), ih inside.2, List.length_cons,
        Nat.add_right_comm, Nat.add_assoc]

theorem foldl_stride (front : List UInt8) :
    front.foldl stride (1, 0) = (lineAfter front, columnAfter front) := by
  induction front using List.reverseRecOn with
  | nil => rfl
  | append_singleton front byte ih =>
      rw [List.foldl_append, ih, List.foldl_cons, List.foldl_nil, stride, lineAfter, lineAfter,
        columnAfter, columnAfter, List.count_append, List.rtakeWhile_concat]
      by_cases ends : byte = lineFeed
      · simp [ends, Nat.add_assoc]
      · simp [ends]

theorem advance_within {offset : Nat} (within : offset < c.utf8Size) (rest : List Char)
    (line column : Nat) : advance (c :: rest) offset (line, column) = (line, column + offset) := by
  rw [advance, if_pos within]

theorem advance_newline (rest : List Char) (offset line column : Nat) :
    advance ('\n' :: rest) (offset + 1) (line, column) = advance rest offset (line + 1, 0) := by
  have size : '\n'.utf8Size = 1 := rfl
  rw [advance, if_neg (by omega), if_pos rfl, Nat.add_sub_cancel]

theorem advance_beyond (other : c ≠ '\n') {offset : Nat} (beyond : c.utf8Size ≤ offset)
    (rest : List Char) (line column : Nat) :
    advance (c :: rest) offset (line, column) =
      advance rest (offset - c.utf8Size) (line, column + c.utf8Size) := by
  rw [advance, if_neg (Nat.not_lt.mpr beyond), if_neg other]

/-- A place is reached byte by byte, also where it is inside a character. -/
theorem advance_eq_foldl (text : List Char) (offset line column : Nat) :
    advance text offset (line, column) =
      ((bytes text).take offset).foldl stride (line, column) := by
  induction text generalizing offset line column with
  | nil => simp [advance, bytes]
  | cons c rest ih =>
      have size := String.length_utf8EncodeChar c
      rw [bytes_cons]
      by_cases newline : c = '\n'
      · subst newline
        cases offset with
        | zero => rfl
        | succ offset =>
            rw [advance_newline, ih]
            rfl
      · have inside := lineFeed_notMem_utf8EncodeChar newline
        rcases Nat.lt_or_ge offset c.utf8Size with within | beyond
        · rw [advance_within within, List.take_append_of_le_length (by omega),
            foldl_stride_of_notMem (fun held => inside (List.mem_of_mem_take held)),
            List.length_take_of_le (by omega)]
        · have whole : (String.utf8EncodeChar c).take offset = String.utf8EncodeChar c :=
            List.take_of_length_le (by omega)
          rw [advance_beyond newline beyond, ih, List.take_append, whole, List.foldl_append,
            foldl_stride_of_notMem inside, size]

/-- The line and the column of a place are those behind the bytes before it. -/
theorem position_eq (text : List Char) (offset : Nat) :
    position text offset =
      (lineAfter ((bytes text).take offset), columnAfter ((bytes text).take offset)) := by
  rw [position, advance_eq_foldl, foldl_stride]

/-! ## Lines and columns lead back -/

theorem bytesOfLines_zero (text : List Char) : bytesOfLines 0 text = 0 := by
  cases text <;> rfl

theorem bytesOfLines_newline (count : Nat) (rest : List Char) :
    bytesOfLines (count + 1) ('\n' :: rest) = 1 + bytesOfLines count rest := rfl

theorem bytesOfLines_cons (other : c ≠ '\n') (count : Nat) (rest : List Char) :
    bytesOfLines (count + 1) (c :: rest) = c.utf8Size + bytesOfLines (count + 1) rest := by
  rw [bytesOfLines, if_neg other]

/-- The lines passed and the column reached make up the bytes taken in. Where no line is passed,
the column goes on from where it was. -/
theorem exists_passed {offset : Nat} (within : offset ≤ byteLength text)
    {line column lastLine lastColumn : Nat}
    (reached : advance text offset (line, column) = (lastLine, lastColumn)) :
    ∃ passed, lastLine = line + passed ∧
      bytesOfLines passed text + lastColumn = offset + if passed = 0 then column else 0 := by
  induction text generalizing offset line column with
  | nil =>
      cases reached
      have start : offset = 0 := Nat.le_zero.mp within
      exact ⟨0, rfl, by simp [bytesOfLines, start]⟩
  | cons c rest ih =>
      rw [byteLength_cons] at within
      rcases Nat.lt_or_ge offset c.utf8Size with inside | beyond
      · rw [advance_within inside] at reached
        cases reached
        exact ⟨0, rfl, by rw [bytesOfLines_zero, if_pos rfl, Nat.zero_add, Nat.add_comm]⟩
      · by_cases newline : c = '\n'
        · subst newline
          have size : '\n'.utf8Size = 1 := rfl
          obtain ⟨offset, rfl⟩ := Nat.exists_eq_add_of_le' (size ▸ beyond)
          rw [advance_newline] at reached
          obtain ⟨passed, rfl, later⟩ := ih (by omega) reached
          refine ⟨passed + 1, by omega, ?_⟩
          rw [ite_self] at later
          rw [bytesOfLines_newline, if_neg (Nat.succ_ne_zero passed)]
          omega
        · rw [advance_beyond newline beyond] at reached
          obtain ⟨passed, rfl, later⟩ := ih (by omega) reached
          refine ⟨passed, rfl, ?_⟩
          cases passed with
          | zero =>
              rw [bytesOfLines_zero, if_pos rfl] at later ⊢
              omega
          | succ passed =>
              rw [if_neg (Nat.succ_ne_zero passed)] at later ⊢
              rw [bytesOfLines_cons newline]
              omega

/-- The span of a place is the byte before it on its line, and the place itself where its line
starts. -/
theorem spanStart_position {offset line column : Nat} (within : offset ≤ byteLength text)
    (reached : position text offset = (line, column)) :
    spanStart text line column = if column = 0 then offset else offset - 1 := by
  obtain ⟨passed, rfl, back⟩ := exists_passed within reached
  rw [ite_self, Nat.add_zero] at back
  rw [spanStart, Nat.add_sub_cancel_left]
  split <;> omega

/-- The span of the place behind some bytes, from the line and the column that they make. -/
theorem spanStart_behind (before : front <+: bytes text) :
    spanStart text (lineAfter front) (columnAfter front) =
      if front = [] ∨ front.getLast? = some lineFeed then front.length else front.length - 1 := by
  have own : (bytes text).take front.length = front := (List.prefix_iff_eq_take.mp before).symm
  have within : front.length ≤ byteLength text := length_bytes text ▸ before.length_le
  have reached := position_eq text front.length
  rw [own] at reached
  rw [spanStart_position within reached]
  simp only [columnAfter_eq_zero_iff]

/-- The byte taken in last on a line ends no line, so leaving it out does not change the line. -/
theorem lineAfter_take_spanStart (before : front <+: bytes text) :
    lineAfter ((bytes text).take (spanStart text (lineAfter front) (columnAfter front))) =
      lineAfter front := by
  have own : (bytes text).take front.length = front := (List.prefix_iff_eq_take.mp before).symm
  rw [spanStart_behind before]
  split
  · rw [own]
  · rename_i inside
    cases front using List.reverseRecOn with
    | nil => simp at inside
    | append_singleton front byte =>
        have other : byte ≠ lineFeed := by simpa using inside
        have shorter : (bytes text).take front.length = front :=
          (List.prefix_iff_eq_take.mp ((List.prefix_append front [byte]).trans before)).symm
        rw [List.length_append, List.length_singleton, Nat.add_sub_cancel, shorter]
        simp [lineAfter, other]

theorem spanStart_le (text : List Char) (line column : Nat) :
    spanStart text line column ≤ (bytes text).length :=
  length_bytes text ▸ Nat.min_le_right _ _

/-! ## Faults of texts -/

theorem Fault.textIn_eq (fault : Fault) (text : List Char) :
    fault.textIn text = fault.cause.text ++
      String.ofList (placeChars (lineAfter ((bytes text).take fault.offset),
        columnAfter ((bytes text).take fault.offset))) := by
  rw [textIn, position_eq]

theorem Fault.spanIn_eq (fault : Fault) (text : List Char) :
    fault.spanIn text = spanStart text (lineAfter ((bytes text).take fault.offset))
      (columnAfter ((bytes text).take fault.offset)) := by
  rw [spanIn, position_eq]

end BlockForge.Json

namespace BlockForge

open BlockForge.Json

/-- What is told of a text that is refused is told of a fault in it. -/
theorem Description.exists_fault {text detail : String} {span : Option Nat}
    (refused : ofJsonText text = .error (.malformed detail span)) :
    ∃ fault : Fault,
      detail = fault.textIn text.toList ∧ span = some (fault.spanIn text.toList) := by
  rw [ofJsonText] at refused
  split at refused
  · rw [accepted] at refused
    split at refused
    · cases refused
    · cases refused
  · rename_i fault _
    cases refused
    exact ⟨fault, rfl, rfl⟩

/-- A line and a column lead back to the place that they were counted at, and the span that is
reported for a text is a place of the text on the line that its message names. -/
theorem spans_lead_back (text : String) :
    (∀ front, front <+: bytes text.toList →
      spanStart text.toList (lineAfter front) (columnAfter front) =
        if front = [] ∨ front.getLast? = some lineFeed then front.length else front.length - 1) ∧
    ∀ detail span, Description.ofJsonText text = .error (.malformed detail (some span)) →
      ∃ front, front <+: bytes text.toList ∧
        (∃ cause : Cause, detail = cause.text ++
          String.ofList (placeChars (lineAfter front, columnAfter front))) ∧
        span = spanStart text.toList (lineAfter front) (columnAfter front) ∧
        span ≤ (bytes text.toList).length ∧
        lineAfter ((bytes text.toList).take span) = lineAfter front := by
  refine ⟨fun front before => spanStart_behind before, fun detail span refused => ?_⟩
  obtain ⟨fault, told, reported⟩ := Description.exists_fault refused
  have before := List.take_prefix fault.offset (bytes text.toList)
  have here : span = spanStart text.toList (lineAfter ((bytes text.toList).take fault.offset))
      (columnAfter ((bytes text.toList).take fault.offset)) :=
    (Option.some.inj reported).trans (fault.spanIn_eq text.toList)
  refine ⟨_, before, ⟨fault.cause, ?_⟩, here, ?_, ?_⟩
  · rw [told, fault.textIn_eq]
  · rw [here]
    exact spanStart_le _ _ _
  · rw [here]
    exact lineAfter_take_spanStart before

/-- A text in which a value is due where a character of two bytes stands. -/
def brokenText : String := "\x7b\n\"code\": é"

/-- The bytes up to the first one of that character. -/
def brokenFront : List UInt8 := (bytes brokenText.toList).take 11

theorem spans_lead_back_brokenText :
    brokenFront <+: bytes brokenText.toList ∧
      spanStart brokenText.toList (lineAfter brokenFront) (columnAfter brokenFront) = 10 ∧
      ∃ detail front, Description.ofJsonText brokenText = .error (.malformed detail (some 10)) ∧
        front <+: bytes brokenText.toList ∧
        (∃ cause : Cause, detail = cause.text ++
          String.ofList (placeChars (lineAfter front, columnAfter front))) ∧
        lineAfter ((bytes brokenText.toList).take 10) = lineAfter front := by
  obtain ⟨led, reported⟩ := spans_lead_back brokenText
  have before : brokenFront <+: bytes brokenText.toList := List.take_prefix _ _
  have read : readText brokenText.toList (Block.readDescription .text) =
      .error (Fault.malformed .expectedValue 11) := by
    decide +kernel
  have points : (Fault.malformed .expectedValue 11).spanIn brokenText.toList = 10 := by
    decide +kernel
  have refused : Description.ofJsonText brokenText = .error (.malformed
      ((Fault.malformed .expectedValue 11).textIn brokenText.toList) (some 10)) := by
    rw [Description.ofJsonText, read, ← points]
  obtain ⟨front, within, told, -, -, sameLine⟩ := reported _ _ refused
  exact ⟨before, (led _ before).trans (by decide +kernel), _, front, refused, within, told,
    sameLine⟩

end BlockForge
