import Bootloader.Libc.NumberRoundTrip
import Bootloader.Libc.Sprintf

/-!
# The numbers that `vprintf` prints

A directive of a number prints the prefix of its base and a field: zeros and the text of
the number. `printsField_iff` says which field that is; whether it has the width asked
for, and whether it is read back as the number, are then questions about lists.
-/

namespace Bootloader.Libc

open Bootloader.Std

/-- The letters of the conversions of numbers: `'d'`, `'u'`, `'p'`, `'x'` and `'b'`. -/
def isNumberLetter (letter : UInt8) : Bool :=
  letter == 0x64 || letter == 0x75 || letter == 0x70 || letter == 0x78 || letter == 0x62

/-- The text of the number that a directive takes. -/
def argumentText (directive : Directive) (args : Memory) (ap : UInt32) : List UInt8 :=
  match fetchValue directive args ap with
  | some (.number digits, _) => digits
  | _ => []

/-- At the next directive of a format, `vprintf` prints the text in front of it, the prefix
of the base and a field, and goes on behind it. -/
def PrintsField (args memory : Memory) (cursor : FormatCursor) (before : List UInt8)
    (directive : Directive) (field : List UInt8) : Prop :=
  ∀ printed, ∃ next, vprintfTurn args cursor ⟨memory, printed⟩ =
    .returned (.again next) ⟨memory, printed ++ (before ++ (baseText directive ++ field))⟩

section Fields

variable {args memory : Memory} {before after field : List UInt8} {strStart ap : UInt32}
  {directive : Directive}

/-- What a conversion of a number takes and writes. -/
theorem fetchValue_number (number : isNumberLetter directive.varFormat = true) (args : Memory)
    (ap : UInt32) :
    (∃ next, fetchValue directive args ap = some (.number (argumentText directive args ap), next)) ∧
      ((directive.varFormat = 0x64 ∧
          argumentText directive args ap = inttostring (fetchSigned directive args ap).1 decimal) ∨
        (directive.varFormat ≠ 0x64 ∧ ∃ base, argumentText directive args ap =
            uinttostring (fetchUnsigned directive args ap).1 base ∧
          ((directive.varFormat = 0x70 ∨ directive.varFormat = 0x78) ∧ base = hexadecimal ∨
            (directive.varFormat = 0x62 ∨ directive.varFormat = 0x75) ∧ base = decimal))) := by
  simp only [isNumberLetter, Bool.or_eq_true, beq_iff_eq] at number
  rcases number with (((letter | letter) | letter) | letter) | letter <;>
    simp [argumentText, fetchValue, letter]

/-- Only a conversion of a number gives digits. -/
theorem fetchValue_digits {digits : List UInt8} {next : UInt32}
    (fetched : fetchValue directive args ap = some (.number digits, next)) :
    isNumberLetter directive.varFormat = true ∧ argumentText directive args ap = digits := by
  refine ⟨?_, by rw [argumentText, fetched]⟩
  rw [fetchValue] at fetched
  split at fetched
  all_goals cases fetched
  all_goals
    rename_i letter
    rw [letter]
    rfl

theorem argumentText_ne_nil (number : isNumberLetter directive.varFormat = true) (args : Memory)
    (ap : UInt32) : argumentText directive args ap ≠ [] := by
  rcases (fetchValue_number number args ap).2 with ⟨_, text⟩ | ⟨_, base, text, _⟩
  · rw [text, inttostring]
    split
    · exact List.cons_ne_nil _ _
    · exact uinttostring_ne_nil _ _
  · rw [text]
    exact uinttostring_ne_nil _ _

/-- No text of a number has more than 65 characters. -/
theorem argumentText_length (number : isNumberLetter directive.varFormat = true) (args : Memory)
    (ap : UInt32) : (argumentText directive args ap).length ≤ 65 := by
  rcases (fetchValue_number number args ap).2 with ⟨_, text⟩ | ⟨_, base, text, _⟩
  · rw [text, inttostring]
    split
    · exact Nat.succ_le_succ (uinttostring_length _ _)
    · exact Nat.le_succ_of_le (uinttostring_length _ _)
  · rw [text]
    exact Nat.le_succ_of_le (uinttostring_length _ _)

/-- A directive of a number prints one field: its zeros and its digits. -/
theorem printsField_iff (string : CString memory strStart (before ++ percent :: after))
    (first : percent ∉ before) (number : isNumberLetter (scan after).1.varFormat = true) :
    PrintsField args memory ⟨strStart, ap⟩ before (scan after).1 field ↔
      field = List.replicate (nbzeros (scan after).1 (argumentText (scan after).1 args ap))
          digitZero ++ argumentText (scan after).1 args ap := by
  obtain ⟨⟨next, fetched⟩, _⟩ := fetchValue_number number args ap
  have prints (printed : List UInt8) := @vprintfTurn_directive (StringAt memory) args memory before
    after _ strStart ap next _ printed (fun _ _ there => there) string first fetched rfl
  constructor
  · intro printsField
    obtain ⟨last, ran, _⟩ := prints []
    obtain ⟨cursor, ran'⟩ := printsField []
    rw [ran] at ran'
    simp only [Outcome.returned.injEq, Turn.again.injEq, Console.mk.injEq, true_and,
      List.append_cancel_left_eq] at ran'
    exact ran'.2.symm
  · rintro rfl printed
    obtain ⟨last, ran, _⟩ := prints printed
    exact ⟨_, ran⟩

end Fields

/-- `strtoull` reads a text as a number, to its end. -/
def ReadsUnsigned (base : Base) (text : List UInt8) (n : UInt64) : Prop :=
  ∀ memory str endptr, CString memory str text → strtoull str endptr base memory =
    .returned n (storeEnd endptr (str + UInt32.ofNat text.length) memory)

/-- `strtoll` reads a text as a number, to its end. -/
def ReadsSigned (base : Base) (text : List UInt8) (n : Int64) : Prop :=
  ∀ memory str endptr, CString memory str text → strtoll str endptr base memory =
    .returned n (storeEnd endptr (str + UInt32.ofNat text.length) memory)

/-- The base a conversion stands for: its prefix is `"0x"` for 16, and `"1'b"` for 2. -/
def conversionBase (letter : UInt8) : Base :=
  if letter = 0x70 ∨ letter = 0x78 then hexadecimal
  else if letter = 0x62 then binary
  else decimal

/-- A field is read back as the argument it was printed for. -/
def ReadsArgument (directive : Directive) (args : Memory) (ap : UInt32) (field : List UInt8) :
    Prop :=
  if directive.varFormat = 0x64 then ReadsSigned decimal field (fetchSigned directive args ap).1
  else ReadsUnsigned (conversionBase directive.varFormat) field
    (fetchUnsigned directive args ap).1

section ReadBack

variable {base : Base} {text digits : List UInt8} {n : UInt64} {endptr str other : UInt32}

/-- Where a conversion has ended can be told from what it has stored. -/
theorem storeEnd_inj {memory : Memory} (valid : endptr ≠ 0)
    (same : storeEnd endptr str memory = storeEnd endptr other memory) : str = other := by
  have loaded := congrArg (Memory.load32 · endptr.toNat) same
  simpa only [storeEnd, if_pos valid, Memory.load32_store32] using loaded

/-- A text of characters can be put somewhere as a string. -/
theorem exists_cstring (nonzero : ∀ c ∈ text, c ≠ 0) (short : text.length < 2 ^ 31) :
    ∃ memory, CString memory 0x1000 text := by
  have start : (0x1000 : UInt32).toNat = 0x1000 := rfl
  refine ⟨Memory.storeBytes (fun _ => 0) (0x1000 : UInt32).toNat text,
    CString.of_loadBytes (by decide) nonzero (by omega) Memory.loadBytes_storeBytes ?_⟩
  exact Memory.storeBytes_outside (Or.inr (Nat.le_refl _))

/-- A numeral that `strtoull` has read to its end was the whole text. -/
theorem LongestNumeral.eq_of_end (numeral : LongestNumeral base text digits)
    (short : text.length < 2 ^ 31)
    (ends : str + UInt32.ofNat digits.length = str + UInt32.ofNat text.length) :
    digits = text := by
  have shorter := numeral.starts.length_le
  have same := congrArg UInt32.toNat ((UInt32.add_right_inj _).mp ends)
  rw [UInt32.toNat_ofNat', UInt32.toNat_ofNat'] at same
  exact numeral.starts.eq_of_length (by omega)

/-- A text is read to its end when all of it is a numeral. -/
theorem readsUnsigned_iff (ascii : ∀ c ∈ text, c < 128) (nonzero : ∀ c ∈ text, c ≠ 0)
    (short : text.length < 2 ^ 31) :
    ReadsUnsigned base text n ↔
      (∀ c ∈ text, ValidIn base c) ∧ UInt64.ofNat (textValue base text) = n := by
  constructor
  · intro reads
    obtain ⟨memory, string⟩ := exists_cstring nonzero short
    obtain ⟨digits, numeral⟩ := exists_longestNumeral base text
    have read := strtoull_eq string ascii numeral 0x100
    rw [reads memory 0x1000 0x100 string, Outcome.returned.injEq] at read
    obtain ⟨value, stored⟩ := read
    obtain rfl := numeral.eq_of_end short (storeEnd_inj (by decide) stored.symm)
    exact ⟨numeral.valid, value.symm⟩
  · rintro ⟨valid, rfl⟩ memory str endptr string
    have numeral := @longestNumeral_append base text [] valid (by simp)
    rw [List.append_nil] at numeral
    exact strtoull_eq string ascii numeral endptr

/-- The decimal text of a number is a binary numeral of it for 0 and 1 only. -/
theorem readsUnsigned_binary_iff (n : UInt64) :
    ReadsUnsigned binary (uinttostring n decimal) n ↔ n ≤ 1 := by
  have valid := uinttostring_valid n decimal
  have few := uinttostring_length n decimal
  have ten : decimal.val.toNat = 10 := rfl
  have two : binary.val.toNat = 2 := rfl
  have bound := n.toNat_lt
  rw [readsUnsigned_iff (uinttostring_ascii n decimal) (fun c member => (valid c member).ne_zero)
    (by omega), UInt64.le_iff_toNat_le, UInt64.toNat_one]
  have denotes : digitNumbers (uinttostring n decimal) = numeral 10 n.toNat :=
    digitNumbers_uinttostring n decimal
  have lower : textValue binary (uinttostring n decimal) ≤ n.toNat := by
    rw [textValue, denotes, two]
    exact (numeralValue_le _ (by decide : 2 ≤ 10)).trans_eq (numeralValue_numeral 10 _)
  have same : UInt64.ofNat (textValue binary (uinttostring n decimal)) = n ↔ n.toNat < 10 := by
    rw [← UInt64.toNat_inj, UInt64.toNat_ofNat', Nat.mod_eq_of_lt (by omega), textValue, denotes,
      two]
    have bases := @numeralValue_eq_iff 2 10 (numeral 10 n.toNat) (by decide)
      (numeral_lt (by decide))
    rwa [numeralValue_numeral] at bases
  rw [same]
  have single (small : n.toNat < 10) :
      uinttostring n decimal = [digit (UInt64.ofNat n.toNat)] := by
    rw [uinttostring_eq, ten, numeral_of_lt small, List.map_singleton]
  constructor
  · rintro ⟨binaryDigits, small⟩
    rw [single small, List.forall_mem_singleton] at binaryDigits
    obtain ⟨number, denoted, below⟩ := binaryDigits
    rw [digitOf_digit (by omega)] at denoted
    cases denoted
    omega
  · intro small
    refine ⟨?_, by omega⟩
    rw [single (by omega), List.forall_mem_singleton]
    exact ⟨n.toNat, digitOf_digit (by omega), by omega⟩

end ReadBack

section Fields

variable {args memory : Memory} {before after field : List UInt8} {strStart ap : UInt32}

/-- A number that is printed without zeros in front is read back in the base of its
conversion, unless the conversion is `'b'` and the number has another text in base 10 than
in base 2. -/
theorem printed_number_reads_back_iff
    (string : CString memory strStart (before ++ percent :: after)) (first : percent ∉ before)
    (number : isNumberLetter (scan after).1.varFormat = true)
    (unpadded : (scan after).1.flagZerofill = false) (args : Memory) (ap : UInt32) :
    (∃ field, PrintsField args memory ⟨strStart, ap⟩ before (scan after).1 field ∧
        ReadsArgument (scan after).1 args ap field) ↔
      (scan after).1.varFormat ≠ 0x62 ∨ (fetchUnsigned (scan after).1 args ap).1 ≤ 1 := by
  have nothing : nbzeros (scan after).1 (argumentText (scan after).1 args ap) = 0 := by
    rw [nbzeros, unpadded]
    rfl
  simp only [printsField_iff string first number, nothing, List.replicate_zero, List.nil_append,
    exists_eq_left]
  rw [ReadsArgument]
  rcases (fetchValue_number number args ap).2 with ⟨letter, text⟩ | ⟨letter, base, text, kind⟩
  · rw [if_pos letter, text]
    refine iff_of_true (fun memory str endptr string => strtoll_inttostring string endptr) ?_
    rw [letter]
    exact Or.inl (by decide)
  · rw [if_neg letter, text]
    by_cases binaryLetter : (scan after).1.varFormat = 0x62
    · have decimalText : base = decimal := by
        rcases kind with ⟨hex | hex, _⟩ | ⟨_, decimalBase⟩
        · exact absurd (hex.symm.trans binaryLetter) (by decide)
        · exact absurd (hex.symm.trans binaryLetter) (by decide)
        · exact decimalBase
      rw [decimalText, binaryLetter, or_iff_right (not_not_intro rfl)]
      exact readsUnsigned_binary_iff _
    · have sameBase : conversionBase (scan after).1.varFormat = base := by
        rw [conversionBase]
        rcases kind with ⟨hex, rfl⟩ | ⟨other | other, rfl⟩
        · exact if_pos hex
        · exact absurd other binaryLetter
        · rw [other]
          rfl
      rw [sameBase]
      exact iff_of_true (fun memory str endptr string => strtoull_uinttostring string endptr)
        (Or.inl binaryLetter)

/-- A format at 0x1000. -/
def formatMemory (text : List UInt8) : Memory := Memory.storeBytes (fun _ => 0) 0x1000 text

/-- An argument of 32 bits at 0x100. -/
def wordArgs (word : UInt32) : Memory := Memory.store32 (fun _ => 0) 0x100 word

/-- "%#x" of the largest number of 32 bits. -/
theorem printed_number_reads_back_iff_hex :
    ∃ field, PrintsField (wordArgs 0xFFFFFFFF) (formatMemory [percent, 0x23, 0x78])
        ⟨0x1000, 0x100⟩ [] (scan [0x23, 0x78]).1 field ∧
      ReadsArgument (scan [0x23, 0x78]).1 (wordArgs 0xFFFFFFFF) 0x100 field :=
  (@printed_number_reads_back_iff (formatMemory [percent, 0x23, 0x78]) [] [0x23, 0x78] 0x1000
    (by decide +kernel) List.not_mem_nil (by decide) (by decide) _ 0x100).mpr (Or.inl (by decide))

/-- "%b" of 2 prints a digit that base 2 does not have. -/
theorem printed_binary_not_read_back :
    ¬ ∃ field, PrintsField (wordArgs 2) (formatMemory [percent, 0x62]) ⟨0x1000, 0x100⟩ []
        (scan [0x62]).1 field ∧
      ReadsArgument (scan [0x62]).1 (wordArgs 2) 0x100 field := by
  rintro ⟨field, prints, reads⟩
  have string : CString (formatMemory [percent, 0x62]) 0x1000 ([] ++ percent :: [0x62]) := by
    decide +kernel
  have printed := (printsField_iff string List.not_mem_nil (by decide)).mp prints
  have text : field = uinttostring 2 decimal := printed.trans (by decide +kernel)
  have number : (fetchUnsigned (scan [0x62]).1 (wordArgs 2) 0x100).1 = 2 := by decide +kernel
  rw [ReadsArgument, if_neg (by decide), number, text] at reads
  exact absurd ((readsUnsigned_binary_iff 2).mp reads) (by decide)

end Fields

end Bootloader.Libc
