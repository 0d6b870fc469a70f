import Bootloader.Arch.Disk
import Bootloader.Libc.StrCompare
import Bootloader.Libc.StrToNb

/-!
# The command `int`

`do_int` checks the number it is given before it raises the interrupt, but not all of it.
`doInt_accepts_iff` says for which arguments that makes no difference.
-/

namespace Bootloader.Shell

open Bootloader.Arch Bootloader.Libc Bootloader.Std

/-- Memory, and the interrupts that have been raised. -/
structure IntMachine where
  memory : Memory
  raised : List UInt8

/-- `hal_geninterrupt`. -/
def halGeninterrupt (intno : UInt8) (machine : IntMachine) : IntMachine :=
  { machine with raised := machine.raised ++ [intno] }

/-- Where `arg_checkdigits` stands, and what it has found so far. -/
structure CheckCursor where
  i : UInt32
  valid : Bool

/-- One turn of the loop in `arg_checkdigits`. -/
def argCheckdigitsTurn (str len : UInt32) (base : Base) (cursor : CheckCursor)
    (memory : Memory) : Outcome Memory (Turn CheckCursor Bool) :=
  if cursor.valid ∧ cursor.i < len then
    .returned (.again ⟨cursor.i + 1,
      cursor.valid && isdigitinbase (memory (str + cursor.i).toNat) base⟩) memory
  else .returned (.leave cursor.valid) memory

/-- `arg_checkdigits`: from the third character on. -/
def argCheckdigits (str : UInt32) (base : Base) (memory : Memory) : Outcome Memory Bool :=
  (strlen str memory).andThen fun len memory =>
    loop (argCheckdigitsTurn str len base) stringTurns ⟨2, true⟩ memory

/-- `do_int`. The constant "0x" stands at `zeroX`. -/
def doInt (zeroX : UInt32) (argc : UInt8) (argv : UInt32) (machine : IntMachine) :
    Outcome IntMachine ExitStatus :=
  if argc ≠ 2 then .returned .failure machine
  else
    let str := machine.memory.load32 (argv + 4).toNat
    if ¬ isdigit (machine.memory str.toNat) then .returned .failure machine
    else
      ((strncmp zeroX str 2 machine.memory).within ({ machine with memory := · })).andThen
        fun order machine =>
          let base := if order = 0 then hexadecimal else decimal
          let str := if order = 0 then str + 2 else str
          ((argCheckdigits str base machine.memory).within
            ({ machine with memory := · })).andThen fun valid machine =>
              if ¬ valid then .returned .failure machine
              else
                ((strtoull str 0 base machine.memory).within
                  ({ machine with memory := · })).andThen fun intno machine =>
                    .returned .success (halGeninterrupt intno.toUInt8 machine)

/-- "0x". -/
def zeroXText : List UInt8 := [0x30, 0x78]

/-- A numeral as the command takes it, and the number it stands for. -/
inductive IntNumeral : List UInt8 → Nat → Prop where
  | plain {digits : List UInt8} (nonempty : digits ≠ [])
      (valid : ∀ c ∈ digits, ValidIn decimal c) : IntNumeral digits (textValue decimal digits)
  | behindZeroX {digits : List UInt8} (nonempty : digits ≠ [])
      (valid : ∀ c ∈ digits, ValidIn hexadecimal c) :
      IntNumeral (zeroXText ++ digits) (textValue hexadecimal digits)

/-- The command raises the interrupt that its one argument is the number of, and refuses
everything else. -/
structure AcceptsExactly (zeroX : UInt32) (argc : UInt8) (argv : UInt32) (text : List UInt8)
    (machine : IntMachine) : Prop where
  accepted : ∀ intno : UInt8, argc = 2 → IntNumeral text intno.toNat →
    doInt zeroX argc argv machine = .returned .success (halGeninterrupt intno machine)
  refused : (¬ ∃ intno : UInt8, argc = 2 ∧ IntNumeral text intno.toNat) →
    doInt zeroX argc argv machine = .returned .failure machine

/-- The base that `do_int` takes an argument in. -/
def intBase (text : List UInt8) : Base := if zeroXText <+: text then hexadecimal else decimal

/-- The digits that `do_int` takes an argument to have. -/
def intDigits (text : List UInt8) : List UInt8 :=
  if zeroXText <+: text then text.drop 2 else text

/-- What `do_int` and `arg_checkdigits` check. -/
structure PassesChecks (text : List UInt8) : Prop where
  first : ∃ c ∈ text.head?, ValidIn decimal c
  later : ∀ c ∈ (intDigits text).drop 2, ValidIn (intBase text) c

/-- What they leave unchecked. -/
structure UncheckedIsFine (text : List UInt8) : Prop where
  nonempty : intDigits text ≠ []
  skipped : ∀ c ∈ (intDigits text).take 2, ValidIn (intBase text) c
  small : textValue (intBase text) (intDigits text) ≤ 255

section Numerals

variable {text : List UInt8} {c : UInt8}

/-- The characters of `isdigit` are the decimal digits. -/
theorem isdigit_iff (ascii : c < 128) : isdigit c = true ↔ ValidIn decimal c := by
  have all : ∀ code < 128,
      isdigit (UInt8.ofNat code) = isdigitinbase (UInt8.ofNat code) decimal := by
    decide +kernel
  rw [@forall_ascii c (fun c => isdigit c = isdigitinbase c decimal) all ascii]
  exact isdigitinbase_iff ascii

/-- "0x" does not begin with two decimal digits. -/
theorem not_decimal_zeroX (valid : ∀ c ∈ text, ValidIn decimal c) : ¬ zeroXText <+: text := by
  intro starts
  have member : (0x78 : UInt8) ∈ text := starts.subset (by decide)
  exact absurd ((isdigit_iff (by decide)).mpr (valid _ member)) (by decide)

/-- What stands behind "0x" is taken for hexadecimal. -/
theorem taken_zeroX (digits : List UInt8) :
    intBase (zeroXText ++ digits) = hexadecimal ∧ intDigits (zeroXText ++ digits) = digits := by
  rw [intBase, intDigits, if_pos (List.prefix_append _ _), if_pos (List.prefix_append _ _)]
  exact ⟨rfl, rfl⟩

/-- Everything else is taken for decimal. -/
theorem taken_other (other : ¬ zeroXText <+: text) :
    intBase text = decimal ∧ intDigits text = text := by
  rw [intBase, intDigits, if_neg other, if_neg other]
  exact ⟨rfl, rfl⟩

/-- An argument is a numeral when all that is taken for its digits are digits. -/
theorem intNumeral_iff {number : Nat} :
    IntNumeral text number ↔ intDigits text ≠ [] ∧
      (∀ c ∈ intDigits text, ValidIn (intBase text) c) ∧
        number = textValue (intBase text) (intDigits text) := by
  constructor
  · rintro (⟨nonempty, valid⟩ | ⟨nonempty, valid⟩)
    · obtain ⟨base, digits⟩ := taken_other (not_decimal_zeroX valid)
      rw [base, digits]
      exact ⟨nonempty, valid, rfl⟩
    · rw [(taken_zeroX _).1, (taken_zeroX _).2]
      exact ⟨nonempty, valid, rfl⟩
  · rintro ⟨nonempty, valid, rfl⟩
    by_cases starts : zeroXText <+: text
    · obtain ⟨digits, rfl⟩ := starts
      rw [(taken_zeroX _).1, (taken_zeroX _).2] at valid ⊢
      rw [(taken_zeroX _).2] at nonempty
      exact .behindZeroX nonempty valid
    · obtain ⟨base, digits⟩ := taken_other starts
      rw [base, digits] at valid ⊢
      rw [digits] at nonempty
      exact .plain nonempty valid

/-- A numeral of the command begins with a decimal digit. -/
theorem IntNumeral.first {number : Nat} (numeral : IntNumeral text number) :
    ∃ c ∈ text.head?, ValidIn decimal c := by
  cases numeral with
  | plain nonempty valid =>
      obtain ⟨c, rest, rfl⟩ := List.exists_cons_of_ne_nil nonempty
      exact ⟨c, rfl, valid c List.mem_cons_self⟩
  | behindZeroX =>
      have ascii : (0x30 : UInt8) < 128 := by decide
      exact ⟨0x30, rfl, (isdigit_iff ascii).mp (by decide)⟩

/-- What passes the checks is a numeral of the right size when the rest is fine, and only
then. -/
theorem PassesChecks.numeral_iff (passes : PassesChecks text) :
    (∃ number ≤ 255, IntNumeral text number) ↔ UncheckedIsFine text := by
  constructor
  · rintro ⟨number, small, numeral⟩
    obtain ⟨nonempty, valid, rfl⟩ := intNumeral_iff.mp numeral
    exact ⟨nonempty, fun c member => valid c (List.mem_of_mem_take member), small⟩
  · intro fine
    refine ⟨_, fine.small, intNumeral_iff.mpr ⟨fine.nonempty, fun c member => ?_, rfl⟩⟩
    rw [← List.take_append_drop 2 (intDigits text), List.mem_append] at member
    exact member.elim (fine.skipped c) (passes.later c)

theorem IntNumeral.passesChecks {number : Nat} (numeral : IntNumeral text number) :
    PassesChecks text where
  first := numeral.first
  later c member := (intNumeral_iff.mp numeral).2.1 c (List.mem_of_mem_drop member)

end Numerals

section Checks

variable {memory : Memory} {str len : UInt32} {base : Base} {text : List UInt8}

/-- At a character of the string the index is below the length, and what follows is behind
that character. -/
theorem index_here {passed rest : List UInt8} {c : UInt8}
    (string : CString memory str (passed ++ c :: rest)) :
    UInt32.ofNat passed.length < UInt32.ofNat (passed ++ c :: rest).length ∧
      memory (str + UInt32.ofNat passed.length).toNat = c ∧
      UInt32.ofNat passed.length + 1 = UInt32.ofNat (passed ++ [c]).length := by
  have fits := string.fits
  rw [List.length_append, List.length_cons] at fits
  refine ⟨?_, string.drop.2.2.1, ?_⟩
  · rw [UInt32.lt_iff_toNat_lt, UInt32.toNat_ofNat', UInt32.toNat_ofNat', List.length_append,
      List.length_cons]
    omega
  · rw [List.length_append, UInt32.ofNat_add]
    rfl

/-- The third character of a shorter string is not looked at. -/
theorem index_short (short : text.length < 2) : ¬ (2 : UInt32) < UInt32.ofNat text.length := by
  rw [UInt32.lt_iff_toNat_lt, UInt32.toNat_ofNat']
  exact fun more => absurd (show 2 < text.length % 2 ^ 32 from more) (by omega)

/-- The loop checks the rest of the string. -/
theorem argCheckdigits_walk (passed rest : List UInt8)
    (string : CString memory str (passed ++ rest)) :
    ∀ turns, rest.length + 1 < turns →
      loop (argCheckdigitsTurn str (UInt32.ofNat (passed ++ rest).length) base) turns
          ⟨UInt32.ofNat passed.length, true⟩ memory =
        .returned (rest.all (isdigitinbase · base)) memory := by
  intro turns enough
  induction rest generalizing passed turns with
  | nil =>
      obtain ⟨turns, rfl⟩ := Nat.exists_eq_add_of_lt enough
      apply loop_leave
      rw [argCheckdigitsTurn, List.append_nil, if_neg fun both => UInt32.lt_irrefl _ both.2]
      rfl
  | cons c rest inductionHypothesis =>
      obtain ⟨turns, rfl⟩ : ∃ fewer, turns = fewer + 2 := ⟨turns - 2, by omega⟩
      obtain ⟨more, looked, next⟩ := index_here string
      have turn : argCheckdigitsTurn str (UInt32.ofNat (passed ++ c :: rest).length) base
          ⟨UInt32.ofNat passed.length, true⟩ memory =
            .returned (.again ⟨UInt32.ofNat (passed ++ [c]).length, isdigitinbase c base⟩)
              memory := by
        rw [argCheckdigitsTurn, if_pos ⟨rfl, more⟩, looked, next]
        rfl
      rw [loop_again turn, List.all_cons]
      cases digit : isdigitinbase c base with
      | false =>
          apply loop_leave
          rw [argCheckdigitsTurn, if_neg fun both => Bool.false_ne_true both.1]
          rfl
      | true =>
          rw [List.append_cons] at string ⊢
          rw [List.length_cons] at enough
          exact inductionHypothesis (passed ++ [c]) string (turns + 1) (by omega)

/-- `arg_checkdigits` looks at all characters but the first two. -/
theorem argCheckdigits_eq (string : CString memory str text) (base : Base) :
    argCheckdigits str base memory =
      .returned ((text.drop 2).all (isdigitinbase · base)) memory := by
  rw [argCheckdigits, strlen_eq string, Outcome.returned_andThen]
  by_cases short : text.length < 2
  · rw [List.drop_eq_nil_of_le (Nat.le_of_lt short)]
    apply loop_leave
    rw [argCheckdigitsTurn, if_neg fun both => index_short short both.2]
    rfl
  · have two : (text.take 2).length = 2 := by
      rw [List.length_take]
      omega
    have enough := string.length_lt
    have walked := @argCheckdigits_walk memory str base (text.take 2) (text.drop 2)
      (by rwa [List.take_append_drop]) stringTurns (by
        rw [List.length_drop]
        omega)
    rw [List.take_append_drop, two] at walked
    exact walked

end Checks

section Commands

variable {zeroX argv : UInt32} {argc : UInt8} {text : List UInt8} {machine : IntMachine}

/-- Where the argument of the command stands. -/
def Argument (zeroX argv : UInt32) (text : List UInt8) (memory : Memory) : Prop :=
  CString memory zeroX zeroXText ∧ CString memory (memory.load32 (argv + 4).toNat) text

/-- The first characters are compared with "0x". -/
theorem strncmp_zeroX {memory : Memory} {str : UInt32} (constant : CString memory zeroX zeroXText)
    (string : CString memory str text) :
    ∃ order, strncmp zeroX str 2 memory = .returned order memory ∧
      (order = 0 ↔ zeroXText <+: text) := by
  refine ⟨_, strncmp_eq constant string (by decide), ?_⟩
  have valid : ∀ c ∈ text.take 2, c ≠ 0 := fun c member =>
    string.nonzero c (List.mem_of_mem_take member)
  rw [List.prefix_iff_eq_take]
  exact @compareText_eq_zero_iff zeroXText (text.take 2) (by decide +kernel) valid

/-- Where the digits stand. -/
theorem cstring_intDigits {memory : Memory} {str : UInt32} (string : CString memory str text)
    {order : Int} (zero : order = 0 ↔ zeroXText <+: text) :
    CString memory (if order = 0 then str + 2 else str) (intDigits text) ∧
      (if order = 0 then hexadecimal else decimal) = intBase text := by
  by_cases starts : zeroXText <+: text
  · rw [if_pos (zero.mpr starts), if_pos (zero.mpr starts), intDigits, intBase, if_pos starts,
      if_pos starts]
    obtain ⟨digits, rfl⟩ := starts
    exact ⟨string.drop, rfl⟩
  · rw [if_neg (starts ∘ zero.mp), if_neg (starts ∘ zero.mp), intDigits, intBase, if_neg starts,
      if_neg starts]
    exact ⟨string, rfl⟩

/-- The first character is looked up, the terminator of an empty argument included. -/
theorem isdigit_first {memory : Memory} {str : UInt32} (string : CString memory str text)
    (ascii : ∀ c ∈ text, c < 128) :
    isdigit (memory str.toNat) = true ↔ ∃ c ∈ text.head?, ValidIn decimal c := by
  rw [string.head]
  cases text with
  | nil => exact iff_of_false (by decide) (by simp)
  | cons c rest =>
      rw [List.headD_cons, isdigit_iff (ascii c List.mem_cons_self)]
      simp

/-- What `do_int` does with an argument, check by check. -/
theorem doInt_eq (two : argc = 2) (argument : Argument zeroX argv text machine.memory)
    (ascii : ∀ c ∈ text, c < 128) {digits : List UInt8}
    (numeral : LongestNumeral (intBase text) (intDigits text) digits) :
    (PassesChecks text → doInt zeroX argc argv machine = .returned .success
      (halGeninterrupt (UInt8.ofNat (textValue (intBase text) digits)) machine)) ∧
    (¬ PassesChecks text → doInt zeroX argc argv machine = .returned .failure machine) := by
  obtain ⟨constant, string⟩ := argument
  obtain ⟨order, compared, zero⟩ := strncmp_zeroX constant string
  obtain ⟨rest, base⟩ := cstring_intDigits string zero
  have asciiRest : ∀ c ∈ intDigits text, c < 128 := by
    intro c member
    rw [intDigits] at member
    split at member
    · exact ascii c (List.mem_of_mem_drop member)
    · exact ascii c member
  have later : ((intDigits text).drop 2).all (isdigitinbase · (intBase text)) = true ↔
      ∀ c ∈ (intDigits text).drop 2, ValidIn (intBase text) c := by
    rw [List.all_eq_true]
    exact forall₂_congr fun c member =>
      isdigitinbase_iff (asciiRest c (List.mem_of_mem_drop member))
  by_cases first : isdigit (machine.memory (machine.memory.load32 (argv + 4).toNat).toNat) = true
  · have ran : doInt zeroX argc argv machine =
        if ((intDigits text).drop 2).all (isdigitinbase · (intBase text)) = true then
          .returned .success
            (halGeninterrupt (UInt8.ofNat (textValue (intBase text) digits)) machine)
        else .returned .failure machine := by
      simp only [doInt, two, ne_eq, not_true_eq_false, if_false, first, compared, base,
        argCheckdigits_eq rest, Outcome.returned_within, Outcome.returned_andThen,
        strtoull_eq rest asciiRest numeral]
      rw [ite_not, UInt64.toUInt8_ofNat', storeEnd, if_neg (not_not.mpr rfl)]
    have passes : PassesChecks text ↔
        ((intDigits text).drop 2).all (isdigitinbase · (intBase text)) = true := by
      rw [later]
      exact ⟨fun passes => passes.later,
        fun later => ⟨(isdigit_first string ascii).mp first, later⟩⟩
    rw [ran, passes]
    exact ⟨fun valid => if_pos valid, fun invalid => if_neg invalid⟩
  · refine ⟨fun passes => absurd ((isdigit_first string ascii).mpr passes.first) first, fun _ => ?_⟩
    rw [doInt, if_neg (not_not.mpr two)]
    exact if_pos first

/-- Whether a number is one that the command takes. -/
theorem exists_intno (two : argc = 2) :
    (∃ intno : UInt8, argc = 2 ∧ IntNumeral text intno.toNat) ↔
      ∃ number ≤ 255, IntNumeral text number := by
  constructor
  · rintro ⟨intno, _, numeral⟩
    exact ⟨intno.toNat, Nat.le_of_lt_succ intno.toNat_lt, numeral⟩
  · rintro ⟨number, small, numeral⟩
    refine ⟨UInt8.ofNat number, two, ?_⟩
    rwa [UInt8.toNat_ofNat', Nat.mod_eq_of_lt (by omega)]

/-- The command takes exactly the numbers of interrupts, for an argument that is refused by
what `do_int` and `arg_checkdigits` check, or would pass what they leave unchecked. -/
theorem doInt_accepts_iff (argument : argc = 2 → Argument zeroX argv text machine.memory)
    (ascii : ∀ c ∈ text, c < 128) :
    AcceptsExactly zeroX argc argv text machine ↔
      argc ≠ 2 ∨ ¬ PassesChecks text ∨ UncheckedIsFine text := by
  by_cases two : argc = 2
  · obtain ⟨digits, numeral⟩ := exists_longestNumeral (intBase text) (intDigits text)
    obtain ⟨raises, refuses⟩ := doInt_eq two (argument two) ascii numeral
    by_cases passes : PassesChecks text
    · have ran := raises passes
      constructor
      · intro accepts
        refine Or.inr (Or.inr (passes.numeral_iff.mp ?_))
        by_contra nothing
        rw [accepts.refused ((exists_intno two).not.mpr nothing)] at ran
        cases ran
      · rintro (other | fails | fine)
        · exact absurd two other
        · exact absurd passes fails
        · obtain ⟨number, small, numbered⟩ := passes.numeral_iff.mpr fine
          refine ⟨fun intno _ taken => ?_,
            fun nothing => absurd ⟨number, small, numbered⟩ ((exists_intno two).not.mp nothing)⟩
          obtain ⟨_, valid, value⟩ := intNumeral_iff.mp taken
          have whole : LongestNumeral (intBase text) (intDigits text) (intDigits text) :=
            ⟨List.prefix_refl _, valid, fun other starts _ => starts.length_le⟩
          rw [ran, numeral.unique whole, ← value, UInt8.ofNat_toNat]
    · refine iff_of_true ⟨fun intno _ taken => absurd taken.passesChecks passes,
        fun _ => refuses passes⟩ (Or.inr (Or.inl passes))
  · refine iff_of_true ⟨fun intno same => absurd same two, fun _ => ?_⟩ (Or.inl two)
    rw [doInt, if_pos two]

/-- "0x" at 0x1000, and an argument at 0x3000 that the array at 0x2000 points to. -/
def intMachine (text : List UInt8) : IntMachine where
  memory := ((Memory.storeBytes (fun _ => 0) 0x1000 zeroXText).store32 0x2004 0x3000).storeBytes
    0x3000 text
  raised := []

/-- The argument "21". -/
theorem doInt_accepts_iff_keyboard :
    AcceptsExactly 0x1000 2 0x2000 [0x32, 0x31] (intMachine [0x32, 0x31]) ↔
      (2 : UInt8) ≠ 2 ∨ ¬ PassesChecks [0x32, 0x31] ∨ UncheckedIsFine [0x32, 0x31] :=
  doInt_accepts_iff (fun _ => ⟨by decide +kernel, by decide +kernel⟩) (by decide +kernel)

/-- The argument "1x" raises an interrupt. -/
theorem doInt_takes_no_numeral :
    ¬ AcceptsExactly 0x1000 2 0x2000 [0x31, 0x78] (intMachine [0x31, 0x78]) := by
  intro accepts
  have raised : (doInt 0x1000 2 0x2000 (intMachine [0x31, 0x78])).passes
      (fun status machine => status = .success && machine.raised = [1]) = true := by
    decide +kernel
  rw [accepts.refused] at raised
  · exact Bool.false_ne_true raised
  · rintro ⟨intno, _, numeral⟩
    have other : ¬ zeroXText <+: [0x31, 0x78] := by decide
    have valid := (intNumeral_iff.mp numeral).2.1 0x78 (by rw [(taken_other other).2]; decide)
    rw [(taken_other other).1] at valid
    exact absurd ((isdigit_iff (by decide)).mpr valid) (by decide)

end Commands

end Bootloader.Shell
