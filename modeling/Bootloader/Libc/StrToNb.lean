import Bootloader.Libc.Ctype
import Bootloader.Libc.StrOperations
import Bootloader.Std.Numeral
import Bootloader.Std.Reach

/-!
# Strings to numbers

`strtoull` adds up digits for as long as they are valid in the base. Which numeral that
is of a string is a matter of the string alone, and `strtoull_eq` says that the routine
returns its value, in 64 bits, and where it ends.
-/

namespace Bootloader.Libc

open Bootloader.Std Relation

/-- Where the conversion reads, and the number so far. -/
structure NumberCursor where
  str : UInt32
  n : UInt64

/-- What a digit adds to the number. -/
def digitValue (c : UInt8) : UInt64 :=
  if isdigit c then UInt64.ofInt (charInt c - 0x30)
  else UInt64.ofInt (charInt (tolower c) - 0x61 + 10)

/-- One turn of the loop in `strtoull`. -/
def strtoullTurn (base : Base) (cursor : NumberCursor) (memory : Memory) :
    Outcome Memory (Turn NumberCursor NumberCursor) :=
  let c := memory cursor.str.toNat
  if isdigitinbase c base then
    .returned (.again ⟨cursor.str + 1, cursor.n * base + digitValue c⟩) memory
  else .returned (.leave cursor) memory

/-- `*endptr = str`, unless there is no `endptr`. -/
def storeEnd (endptr str : UInt32) (memory : Memory) : Memory :=
  if endptr ≠ 0 then memory.store32 endptr.toNat str else memory

/-- `strtoull`. -/
def strtoull (str endptr : UInt32) (base : Base) (memory : Memory) : Outcome Memory UInt64 :=
  if str = 0 then .panicked "str != NULL" memory
  else
    (loop (strtoullTurn base) stringTurns ⟨str, 0⟩ memory).andThen fun cursor memory =>
      .returned cursor.n (storeEnd endptr cursor.str memory)

/-- `strtoll`. -/
def strtoll (str endptr : UInt32) (base : Base) (memory : Memory) : Outcome Memory Int64 :=
  if str = 0 then .panicked "str != NULL" memory
  else
    let negative := memory str.toNat = minus
    (strtoull (if negative then str + 1 else str) endptr base memory).andThen fun n memory =>
      .returned (if negative then -n.toInt64 else n.toInt64) memory

/-- The numbers that the characters of a numeral denote. -/
def digitNumbers (text : List UInt8) : List Nat := text.map fun c => (digitOf c).getD 0

/-- The number a numeral denotes in a base. -/
def textValue (base : Base) (text : List UInt8) : Nat :=
  numeralValue base.val.toNat (digitNumbers text)

/-- The longest numeral in a base at the start of a text. -/
structure LongestNumeral (base : Base) (text digits : List UInt8) : Prop where
  starts : digits <+: text
  valid : ∀ c ∈ digits, ValidIn base c
  longest : ∀ other, other <+: text → (∀ c ∈ other, ValidIn base c) →
    other.length ≤ digits.length

section Numerals

variable {base : Base} {text digits rest : List UInt8} {c : UInt8}

/-- Digits up to a character that is none make the longest numeral. -/
theorem longestNumeral_append (valid : ∀ c ∈ digits, ValidIn base c)
    (ends : ∀ c ∈ rest.head?, ¬ ValidIn base c) :
    LongestNumeral base (digits ++ rest) digits := by
  refine ⟨List.prefix_append _ _, valid, fun other starts others => ?_⟩
  by_contra longer
  obtain ⟨more, rfl⟩ := List.prefix_of_prefix_length_le (List.prefix_append digits rest) starts
    (Nat.le_of_not_le longer)
  obtain ⟨behind, whole⟩ := starts
  rw [List.append_assoc, List.append_cancel_left_eq] at whole
  cases more with
  | nil => exact longer (by rw [List.append_nil])
  | cons c more =>
      refine ends c ?_ (others c (List.mem_append_right _ List.mem_cons_self))
      rw [← whole]
      rfl

/-- Behind the longest numeral stands no further digit. -/
theorem LongestNumeral.split (numeral : LongestNumeral base text digits) :
    ∃ rest, text = digits ++ rest ∧ ∀ c ∈ rest.head?, ¬ ValidIn base c := by
  obtain ⟨rest, rfl⟩ := numeral.starts
  refine ⟨rest, rfl, fun c first valid => ?_⟩
  obtain ⟨tail, rfl⟩ : ∃ tail, rest = c :: tail := by
    cases rest with
    | nil => cases first
    | cons other tail =>
        cases first
        exact ⟨tail, rfl⟩
  have longer := numeral.longest (digits ++ [c]) ⟨tail, by simp⟩ fun other member => by
    rcases List.mem_append.mp member with earlier | last
    · exact numeral.valid other earlier
    · rwa [List.mem_singleton.mp last]
  rw [List.length_append, List.length_singleton] at longer
  omega

theorem exists_longestNumeral (base : Base) (text : List UInt8) :
    ∃ digits, LongestNumeral base text digits := by
  induction text with
  | nil => exact ⟨[], @longestNumeral_append base [] [] (by simp) (by simp)⟩
  | cons c rest inductionHypothesis =>
      by_cases valid : ValidIn base c
      · obtain ⟨digits, numeral⟩ := inductionHypothesis
        obtain ⟨rest, rfl, ends⟩ := numeral.split
        exact ⟨c :: digits, @longestNumeral_append base (c :: digits) rest
          (List.forall_mem_cons.mpr ⟨valid, numeral.valid⟩) ends⟩
      · exact ⟨[], @longestNumeral_append base [] (c :: rest) (by simp) (by simpa using valid)⟩

/-- A text has one longest numeral. -/
theorem LongestNumeral.unique {others : List UInt8} (numeral : LongestNumeral base text digits)
    (other : LongestNumeral base text others) : digits = others := by
  have shorter := other.longest digits numeral.starts numeral.valid
  have longer := numeral.longest others other.starts other.valid
  exact (List.prefix_of_prefix_length_le numeral.starts other.starts shorter).eq_of_length
    (Nat.le_antisymm shorter longer)

/-- One more digit. -/
theorem textValue_concat (base : Base) (text : List UInt8) (c : UInt8) :
    textValue base (text ++ [c]) =
      textValue base text * base.val.toNat + (digitOf c).getD 0 := by
  rw [textValue, digitNumbers, List.map_append, List.map_singleton, numeralValue_concat]
  rfl

/-- What the source adds for a digit is the number it denotes. -/
theorem digitValue_eq (ascii : c < 128) (valid : isdigitinbase c base = true) :
    digitValue c = UInt64.ofNat ((digitOf c).getD 0) := by
  have ofInt (number : Nat) : UInt64.ofInt number = UInt64.ofNat number := by
    apply UInt64.toNat_inj.mp
    rw [UInt64.ofInt, UInt64.toNat_ofNat', UInt64.toNat_ofNat']
    omega
  rw [digitValue]
  cases decimal : isdigit c with
  | true =>
      obtain ⟨number, _, denotes, value⟩ := isdigit_denotes ascii decimal
      rw [if_pos rfl, value, denotes, ofInt]
      rfl
  | false =>
      have hex : isxdigit c = true := by
        by_contra nothing
        rw [isdigitinbase, decimal, if_neg Bool.false_ne_true, if_neg nothing] at valid
        cases valid
      obtain ⟨number, _, denotes, value⟩ := isxdigit_denotes ascii decimal hex
      rw [if_neg Bool.false_ne_true, value, denotes, ofInt]
      rfl

end Numerals

section Reading

variable {base : Base} {memory : Memory} {str endptr : UInt32} {n : UInt64}
  {text digits rest passed : List UInt8} {c : UInt8}

/-- The loop passes a digit. -/
theorem strtoullTurn_again (string : CString memory str (c :: rest)) (ascii : c < 128)
    (valid : ValidIn base c) :
    strtoullTurn base ⟨str, n⟩ memory = .returned
      (.again ⟨str + 1, n * base + UInt64.ofNat ((digitOf c).getD 0)⟩) memory := by
  have here : memory str.toNat = c := string.2.2.1
  have digit := (isdigitinbase_iff ascii).mpr valid
  simp only [strtoullTurn, here, if_pos digit, digitValue_eq ascii digit]

/-- The loop ends at a character that is no digit, the terminator included. -/
theorem strtoullTurn_leave (string : CString memory str rest) (ascii : ∀ c ∈ rest, c < 128)
    (ends : ∀ c ∈ rest.head?, ¬ ValidIn base c) :
    strtoullTurn base ⟨str, n⟩ memory = .returned (.leave ⟨str, n⟩) memory := by
  have nothing : ¬ isdigitinbase (memory str.toNat) base = true := by
    cases rest with
    | nil =>
        rw [show memory str.toNat = 0 from string.2, isdigitinbase_iff (by decide)]
        rintro ⟨number, denotes, _⟩
        cases denotes
    | cons c rest =>
        rw [show memory str.toNat = c from string.2.2.1,
          isdigitinbase_iff (ascii c List.mem_cons_self)]
        exact ends c rfl
  rw [strtoullTurn, if_neg nothing]

/-- The loop adds up digits as they are valued. -/
theorem strtoull_loop (string : CString memory str (digits ++ rest))
    (ascii : ∀ c ∈ digits ++ rest, c < 128) (valid : ∀ c ∈ digits, ValidIn base c)
    (ends : ∀ c ∈ rest.head?, ¬ ValidIn base c) (passed : List UInt8) (turns : Nat) :
    loop (strtoullTurn base) (digits.length + turns + 1)
        ⟨str, UInt64.ofNat (textValue base passed)⟩ memory =
      .returned ⟨str + UInt32.ofNat digits.length,
        UInt64.ofNat (textValue base (passed ++ digits))⟩ memory := by
  induction digits generalizing str passed with
  | nil =>
      rw [List.length_nil, offset_zero, List.append_nil]
      exact loop_leave (strtoullTurn_leave string ascii ends)
  | cons c digits inductionHypothesis =>
      obtain ⟨first, later⟩ := List.forall_mem_cons.mp valid
      obtain ⟨firstAscii, laterAscii⟩ := List.forall_mem_cons.mp ascii
      have again := @strtoullTurn_again base memory str (UInt64.ofNat (textValue base passed))
        (digits ++ rest) c string firstAscii first
      have added : UInt64.ofNat (textValue base passed) * base +
          UInt64.ofNat ((digitOf c).getD 0) = UInt64.ofNat (textValue base (passed ++ [c])) := by
        rw [textValue_concat, UInt64.ofNat_add, UInt64.ofNat_mul, UInt64.ofNat_toNat]
      rw [added] at again
      rw [List.length_cons, Nat.add_right_comm _ 1 turns, loop_again again,
        inductionHypothesis string.2.2.2 laterAscii later, offset_succ, List.append_assoc,
        List.singleton_append]

/-- `strtoull` returns the value of the longest numeral, and where it ends. -/
theorem strtoull_eq (string : CString memory str text) (ascii : ∀ c ∈ text, c < 128)
    (numeral : LongestNumeral base text digits) (endptr : UInt32) :
    strtoull str endptr base memory = .returned (UInt64.ofNat (textValue base digits))
      (storeEnd endptr (str + UInt32.ofNat digits.length) memory) := by
  obtain ⟨rest, rfl, ends⟩ := numeral.split
  obtain ⟨turns, more⟩ := Nat.exists_eq_add_of_lt string.front_lt
  have ran := strtoull_loop string ascii numeral.valid ends [] turns
  rw [strtoull, if_neg string.ne_zero, more]
  exact congrArg (Outcome.andThen · _) ran

/-- Without a sign `strtoll` reads what `strtoull` reads. -/
theorem strtoll_eq (string : CString memory str text) (ascii : ∀ c ∈ text, c < 128)
    (unsigned : text.head? ≠ some minus) (numeral : LongestNumeral base text digits)
    (endptr : UInt32) :
    strtoll str endptr base memory = .returned (UInt64.ofNat (textValue base digits)).toInt64
      (storeEnd endptr (str + UInt32.ofNat digits.length) memory) := by
  have here : ¬ memory str.toNat = minus := by
    rw [string.head]
    cases text with
    | nil => exact (by decide : ¬ (0 : UInt8) = minus)
    | cons c rest => exact fun same => unsigned (congrArg some same)
  simp only [strtoll, if_neg string.ne_zero, if_neg here, strtoull_eq string ascii numeral,
    Outcome.returned_andThen]

/-- Behind a sign `strtoll` reads what `strtoull` reads, and negates it. -/
theorem strtoll_minus (string : CString memory str (minus :: text)) (ascii : ∀ c ∈ text, c < 128)
    (numeral : LongestNumeral base text digits) (endptr : UInt32) :
    strtoll str endptr base memory = .returned (-(UInt64.ofNat (textValue base digits)).toInt64)
      (storeEnd endptr (str + UInt32.ofNat (digits.length + 1)) memory) := by
  have here : memory str.toNat = minus := string.2.2.1
  simp only [strtoll, if_neg string.ne_zero, if_pos here, strtoull_eq string.2.2.2 ascii numeral,
    Outcome.returned_andThen, offset_succ]

/-- The loop reads the characters of the string one by one, and stops within it. -/
theorem strtoull_path {point : NumberCursor × Memory}
    (string : CString memory str text) (ascii : ∀ c ∈ text, c < 128)
    (path : ReflTransGen (Again (strtoullTurn base)) (⟨str, n⟩, memory) point) :
    point.2 = memory ∧ ∃ passed rest, text = passed ++ rest ∧
      CString memory point.1.str rest ∧
      point.1.str.toNat = str.toNat + passed.length := by
  induction path with
  | refl => exact ⟨rfl, [], text, rfl, string, rfl⟩
  | @tail middle next earlier last inductionHypothesis =>
      obtain ⟨same, passed, rest, rfl, here, place⟩ := inductionHypothesis
      obtain ⟨⟨middleStr, middleN⟩, middleMemory⟩ := middle
      obtain rfl : middleMemory = memory := same
      cases rest with
      | nil =>
          rw [Again, strtoullTurn_leave here (by simp) (by simp)] at last
          cases last
      | cons c rest =>
          have asciiHere : ∀ c' ∈ c :: rest, c' < 128 :=
            fun c' member => ascii c' (List.mem_append_right _ member)
          by_cases valid : ValidIn base c
          · rw [Again, strtoullTurn_again here (asciiHere c List.mem_cons_self) valid] at last
            simp only [Outcome.returned.injEq, Turn.again.injEq] at last
            obtain ⟨moved, unchanged⟩ := last
            refine ⟨unchanged.symm, passed ++ [c], rest, by simp, ?_, ?_⟩
            · rw [← moved]
              exact here.2.2.2
            · rw [← moved, List.length_append]
              exact here.toNat_next.trans (congrArg (· + 1) place)
          · rw [Again, strtoullTurn_leave here asciiHere (by simpa using valid)] at last
            cases last

/-- `strtoull` reads exactly the longest numeral: it returns its value modulo 2^64 and
stores the place behind it, every character it reads stands at or before the terminator,
and nothing behind that makes a difference. -/
theorem strtoull_reads_numeral (string : CString memory str text)
    (ascii : ∀ c ∈ text, c < 128) (base : Base) (endptr : UInt32) :
    (∃ digits, LongestNumeral base text digits ∧ ∃ n,
      n.toNat = textValue base digits % 2 ^ 64 ∧
      strtoull str endptr base memory = .returned n
        (storeEnd endptr (str + UInt32.ofNat digits.length) memory) ∧
      ∀ other, Memory.AgreeOn str.toNat (str.toNat + text.length + 1) memory other →
        strtoull str endptr base other = .returned n
          (storeEnd endptr (str + UInt32.ofNat digits.length) other)) ∧
      ∀ point, ReflTransGen (Again (strtoullTurn base)) (⟨str, 0⟩, memory) point →
        str.toNat ≤ point.1.str.toNat ∧ point.1.str.toNat ≤ str.toNat + text.length := by
  obtain ⟨digits, numeral⟩ := exists_longestNumeral base text
  refine ⟨⟨digits, numeral, UInt64.ofNat (textValue base digits), UInt64.toNat_ofNat',
    strtoull_eq string ascii numeral endptr, fun other agree => ?_⟩, fun point path => ?_⟩
  · exact strtoull_eq (string.agree agree) ascii numeral endptr
  · obtain ⟨_, passed, rest, rfl, _, place⟩ := strtoull_path string ascii path
    rw [place, List.length_append]
    exact ⟨Nat.le_add_right _ _, by omega⟩

end Reading

section Example

/-- The string "7fZ" at 0x1000. -/
def numeralMemory : Memory := Memory.storeBytes (fun _ => 0) 0x1000 [0x37, 0x66, 0x5A]

theorem strtoull_reads_numeral_hex :
    ∃ digits, LongestNumeral hexadecimal [0x37, 0x66, 0x5A] digits ∧ ∃ n,
      n.toNat = textValue hexadecimal digits % 2 ^ 64 ∧
      strtoull 0x1000 0x2000 hexadecimal numeralMemory = .returned n
        (storeEnd 0x2000 (0x1000 + UInt32.ofNat digits.length) numeralMemory) := by
  have string : CString numeralMemory 0x1000 [0x37, 0x66, 0x5A] := by decide +kernel
  obtain ⟨⟨digits, numeral, n, value, read, _⟩, _⟩ :=
    strtoull_reads_numeral string (by decide +kernel) hexadecimal 0x2000
  exact ⟨digits, numeral, n, value, read⟩

end Example

end Bootloader.Libc
