import Bootloader.Libc.StrToNb

/-!
# Numbers to strings, in the caller's buffer

`uinttostring` and `inttostring` as they work on memory: the digits are stored from the
least significant one on, turned around in place and terminated. What stands in the
buffer in the end is the string that `NbToStr` lists, and that string is the numeral of
the number in its base.
-/

namespace Bootloader.Libc

open Bootloader.Std

/-- No 64-bit number has more digits. -/
def digitTurns : Nat := 64

/-- The loop variables of `uinttostring`. -/
structure DigitsCursor where
  nb : UInt64
  nbdigits : UInt8

/-- One turn of the loop in `uinttostring`. -/
def uinttostringTurn (str : UInt32) (base : Base) (cursor : DigitsCursor) (memory : Memory) :
    Outcome Memory (Turn DigitsCursor UInt8) :=
  let quotient := cursor.nb / base
  let remaining := cursor.nb % base
  let memory := memory.store8 (str + cursor.nbdigits.toUInt32).toNat (digit remaining)
  let nbdigits := cursor.nbdigits + 1
  if quotient ≠ 0 then .returned (.again ⟨quotient, nbdigits⟩) memory
  else .returned (.leave nbdigits) memory

/-- `uinttostring`, into a buffer. -/
def uinttostringInto (nb : UInt64) (str : UInt32) (base : Base) (memory : Memory) :
    Outcome Memory Unit :=
  if str = 0 then .panicked "str != NULL" memory
  else
    (loop (uinttostringTurn str base) digitTurns ⟨nb, 0⟩ memory).andThen fun nbdigits memory =>
      (strnrev str nbdigits.toUInt32 memory).andThen fun _ memory =>
        .returned () (memory.store8 (str + nbdigits.toUInt32).toNat 0)

/-- `inttostring`, into a buffer. -/
def inttostringInto (nb : Int64) (str : UInt32) (base : Base) (memory : Memory) :
    Outcome Memory Unit :=
  if str = 0 then .panicked "str != NULL" memory
  else if nb < 0 then
    uinttostringInto (-nb).toUInt64 (str + 1) base (memory.store8 str.toNat minus)
  else uinttostringInto nb.toUInt64 str base memory

section Text

variable {base : Base} {nb : UInt64} {number : Nat}

/-- The character of a digit denotes it. -/
theorem digitOf_digit (small : number < 16) :
    digitOf (digit (UInt64.ofNat number)) = some number := by
  have all : ∀ number < 16, digitOf (digit (UInt64.ofNat number)) = some number := by decide
  exact all number small

/-- A character that denotes something is no terminator and no sign. -/
theorem digitOf_some {c : UInt8} (denotes : digitOf c = some number) : c ≠ 0 ∧ c ≠ minus := by
  have all : ∀ code < 256, (digitOf (UInt8.ofNat code)).isSome = true →
      UInt8.ofNat code ≠ 0 ∧ UInt8.ofNat code ≠ minus := by
    decide +kernel
  have here := all c.toNat c.toNat_lt
  rw [UInt8.ofNat_toNat, denotes] at here
  exact here rfl

theorem ValidIn.ne_zero {c : UInt8} (valid : ValidIn base c) : c ≠ 0 := by
  obtain ⟨_, denotes, _⟩ := valid
  exact (digitOf_some denotes).1

/-- A sign is no digit. -/
theorem not_validIn_minus (base : Base) : ¬ ValidIn base minus := by
  rintro ⟨_, denotes, _⟩
  exact (digitOf_some denotes).2 rfl

/-- The last digit is found when no quotient is left. -/
theorem digitsUp_last (last : nb / base.val = 0) : digitsUp base nb = [digit (nb % base.val)] := by
  rw [digitsUp]
  exact if_pos last

/-- The digits of the quotient come behind the first one. -/
theorem digitsUp_more (more : nb / base.val ≠ 0) :
    digitsUp base nb = digit (nb % base.val) :: digitsUp base (nb / base.val) := by
  rw [digitsUp]
  exact if_neg more

/-- The digits stored are those of the numeral, in the order they are found. -/
theorem digitsUp_eq (nb : UInt64) (base : Base) :
    (digitsUp base nb).reverse =
      (numeral base.val.toNat nb.toNat).map fun number => digit (UInt64.ofNat number) := by
  have wide := base.two_le
  have remaining (nb : UInt64) : UInt64.ofNat (nb.toNat % base.val.toNat) = nb % base.val := by
    rw [← UInt64.toNat_mod, UInt64.ofNat_toNat]
  induction nb using digitsUp.induct base with
  | case1 nb quotient last =>
      have small : nb.toNat < base.val.toNat := by
        have zero := congrArg UInt64.toNat last
        rw [UInt64.toNat_div, UInt64.toNat_zero] at zero
        exact (Nat.div_eq_zero_iff_lt (by omega)).mp zero
      rw [digitsUp_last last, numeral_of_lt small, ← remaining, Nat.mod_eq_of_lt small]
      rfl
  | case2 nb quotient more inductionHypothesis =>
      have large : base.val.toNat ≤ nb.toNat := by
        by_contra small
        apply more
        apply UInt64.toNat_inj.mp
        rw [UInt64.toNat_div, Nat.div_eq_of_lt (Nat.not_le.mp small), UInt64.toNat_zero]
      rw [digitsUp_more more, List.reverse_cons, inductionHypothesis, UInt64.toNat_div,
        numeral_of_le wide large, List.map_append, List.map_singleton, remaining]

theorem uinttostring_eq (nb : UInt64) (base : Base) :
    uinttostring nb base =
      (numeral base.val.toNat nb.toNat).map fun number => digit (UInt64.ofNat number) :=
  digitsUp_eq nb base

/-- The characters of a number denote its digits. -/
theorem digitNumbers_uinttostring (nb : UInt64) (base : Base) :
    digitNumbers (uinttostring nb base) = numeral base.val.toNat nb.toNat := by
  have wide := base.two_le
  have sixteen := base.le_sixteen
  rw [uinttostring_eq, digitNumbers, List.map_map]
  refine (List.map_congr_left fun number member => ?_).trans (List.map_id _)
  have small := numeral_lt wide number member
  simp only [Function.comp_apply, digitOf_digit (Nat.lt_of_lt_of_le small sixteen),
    Option.getD_some, id_eq]

/-- The text of a number is a numeral of it. -/
@[simp] theorem textValue_uinttostring (nb : UInt64) (base : Base) :
    textValue base (uinttostring nb base) = nb.toNat := by
  rw [textValue, digitNumbers_uinttostring, numeralValue_numeral]

/-- Every character of a number is a digit that is valid in the base. -/
theorem uinttostring_valid (nb : UInt64) (base : Base) :
    ∀ c ∈ uinttostring nb base, ValidIn base c := by
  have sixteen := base.le_sixteen
  intro c member
  rw [uinttostring_eq, List.mem_map] at member
  obtain ⟨number, member, rfl⟩ := member
  have small := numeral_lt base.two_le number member
  exact ⟨number, digitOf_digit (Nat.lt_of_lt_of_le small sixteen), small⟩

theorem uinttostring_ne_nil (nb : UInt64) (base : Base) : uinttostring nb base ≠ [] := by
  rw [uinttostring_eq]
  exact List.map_eq_nil_iff.not.mpr (numeral_ne_nil _ _)

/-- No number but zero is written with a leading zero. -/
theorem uinttostring_head (nonzero : nb ≠ 0) (base : Base) :
    (uinttostring nb base).head? ≠ .some 0x30 := by
  have sixteen := base.le_sixteen
  have nothing := @numeral_head base.val.toNat nb.toNat fun zero =>
    nonzero (UInt64.toNat_inj.mp zero)
  rw [uinttostring_eq, List.head?_map]
  cases first : (numeral base.val.toNat nb.toNat).head? with
  | none => exact fun impossible => nomatch impossible
  | some number =>
      have small := numeral_lt base.two_le number (List.mem_of_mem_head? first)
      have denotes := digitOf_digit (Nat.lt_of_lt_of_le small sixteen)
      rw [first] at nothing
      intro same
      rw [Option.map_some, Option.some.injEq] at same
      rw [same] at denotes
      exact nothing (denotes.symm.trans rfl)

/-- A number has at most 64 digits. -/
theorem uinttostring_length (nb : UInt64) (base : Base) : (uinttostring nb base).length ≤ 64 := by
  rw [uinttostring_eq, List.length_map]
  refine numeral_length_le base.two_le (by decide) (Nat.lt_of_lt_of_le nb.toNat_lt ?_)
  exact Nat.pow_le_pow_left base.two_le 64

end Text

section Buffer

variable {base : Base} {memory : Memory} {str : UInt32} {nb : UInt64}

/-- Bytes with one more behind them. -/
theorem loadBytes_store8_behind {address : Nat} {bytes : List UInt8} (byte : UInt8)
    (held : memory.loadBytes address bytes.length = bytes) :
    (memory.store8 (address + bytes.length) byte).loadBytes address (bytes ++ [byte]).length =
      bytes ++ [byte] := by
  have kept : (memory.store8 (address + bytes.length) byte).loadBytes address bytes.length =
      bytes :=
    (Memory.loadBytes_congr fun place _ below => Memory.store8_of_ne (by omega)).trans held
  rw [List.length_append, List.length_singleton, Memory.loadBytes_append, kept, Memory.loadBytes,
    Memory.store8_same]
  rfl

/-- The place of a digit. -/
theorem toNat_digitPlace {count : Nat} (few : count < 64) (fits : str.toNat + count < 2 ^ 32) :
    (str + (UInt8.ofNat count).toUInt32).toNat = str.toNat + count := by
  rw [UInt32.toNat_add, UInt8.toNat_toUInt32, UInt8.toNat_ofNat']
  omega

/-- The turn of a digit that is not the last one. -/
theorem uinttostringTurn_again {count : Nat} (few : count < 64)
    (fits : str.toNat + count < 2 ^ 32) (more : nb / base.val ≠ 0) :
    uinttostringTurn str base ⟨nb, UInt8.ofNat count⟩ memory =
      .returned (.again ⟨nb / base.val, UInt8.ofNat (count + 1)⟩)
        (memory.store8 (str.toNat + count) (digit (nb % base.val))) := by
  rw [uinttostringTurn, toNat_digitPlace few fits, UInt8.ofNat_add]
  exact if_pos more

/-- The turn of the last digit. -/
theorem uinttostringTurn_leave {count : Nat} (few : count < 64)
    (fits : str.toNat + count < 2 ^ 32) (last : nb / base.val = 0) :
    uinttostringTurn str base ⟨nb, UInt8.ofNat count⟩ memory =
      .returned (.leave (UInt8.ofNat (count + 1)))
        (memory.store8 (str.toNat + count) (digit (nb % base.val))) := by
  rw [uinttostringTurn, toNat_digitPlace few fits, UInt8.ofNat_add]
  exact if_neg (not_not_intro last)

/-- The loop stores the digits behind those it has stored. -/
theorem uinttostring_loop (nb : UInt64) : ∀ (memory : Memory) (stored : List UInt8) (turns : Nat),
    memory.loadBytes str.toNat stored.length = stored →
    (stored ++ digitsUp base nb).length ≤ 64 →
    str.toNat + (stored ++ digitsUp base nb).length < 2 ^ 32 →
    (digitsUp base nb).length ≤ turns →
    ∃ after, loop (uinttostringTurn str base) turns ⟨nb, UInt8.ofNat stored.length⟩ memory =
        .returned (UInt8.ofNat (stored ++ digitsUp base nb).length) after ∧
      after.loadBytes str.toNat (stored ++ digitsUp base nb).length =
        stored ++ digitsUp base nb ∧
      ∀ place, place < str.toNat ∨ str.toNat + (stored ++ digitsUp base nb).length ≤ place →
        after place = memory place := by
  induction nb using digitsUp.induct base with
  | case1 nb quotient last =>
      intro memory stored turns held few fits enough
      rw [digitsUp_last last] at few fits enough ⊢
      have shorter := fits
      rw [List.length_append, List.length_singleton] at shorter few
      obtain ⟨turns, rfl⟩ := Nat.exists_eq_succ_of_ne_zero (Nat.ne_zero_of_lt enough)
      refine ⟨_, ?_, loadBytes_store8_behind _ held, fun place outside => ?_⟩
      · rw [List.length_append, List.length_singleton]
        exact loop_leave (uinttostringTurn_leave (by omega) (by omega) last)
      · rw [List.length_append, List.length_singleton] at outside
        exact Memory.store8_of_ne (by omega)
  | case2 nb quotient more inductionHypothesis =>
      intro memory stored turns held few fits enough
      have split : stored ++ digitsUp base nb =
          stored ++ [digit (nb % base.val)] ++ digitsUp base (nb / base.val) := by
        rw [digitsUp_more more, List.append_assoc, List.singleton_append]
      rw [digitsUp_more more] at enough
      rw [split] at few fits ⊢
      have shorter := fits
      have fewer := few
      rw [List.length_append, List.length_append, List.length_singleton] at shorter fewer
      obtain ⟨turns, rfl⟩ := Nat.exists_eq_succ_of_ne_zero (Nat.ne_zero_of_lt enough)
      obtain ⟨after, ran, written, frame⟩ := inductionHypothesis _
        (stored ++ [digit (nb % base.val)]) turns (loadBytes_store8_behind _ held) few fits
        (Nat.le_of_succ_le_succ enough)
      refine ⟨after, ?_, written, fun place outside => ?_⟩
      · rw [loop_again (uinttostringTurn_again (by omega) (by omega) more)]
        rw [List.length_append, List.length_singleton] at ran
        exact ran
      · rw [frame place outside]
        rw [List.length_append, List.length_append, List.length_singleton] at outside
        exact Memory.store8_of_ne (by omega)

/-- What `uinttostring` leaves in a buffer with room for it: the digits, and a zero behind
them. -/
theorem uinttostringInto_eq (nb : UInt64) (base : Base) (memory : Memory) (valid : str ≠ 0)
    (fits : str.toNat + (uinttostring nb base).length < 2 ^ 32) :
    ∃ after, uinttostringInto nb str base memory = .returned () after ∧
      CString after str (uinttostring nb base) ∧
      ∀ place, place < str.toNat ∨ str.toNat + (uinttostring nb base).length < place →
        after place = memory place := by
  have few := uinttostring_length nb base
  have length : (uinttostring nb base).length = (digitsUp base nb).length := List.length_reverse
  rw [length] at few fits
  obtain ⟨stored, ran, held, frame⟩ := @uinttostring_loop base str nb memory []
    digitTurns rfl few fits few
  rw [List.nil_append] at ran held frame
  obtain ⟨turned, reversed, held', frame'⟩ := strnrev_eq held valid fits
  have count : (UInt8.ofNat (digitsUp base nb).length).toUInt32 =
      UInt32.ofNat (digitsUp base nb).length := by
    apply UInt32.toNat_inj.mp
    rw [UInt8.toNat_toUInt32, UInt8.toNat_ofNat', UInt32.toNat_ofNat']
    omega
  have finish : (str + UInt32.ofNat (digitsUp base nb).length).toNat =
      str.toNat + (digitsUp base nb).length := toNat_offset fits
  refine ⟨turned.store8 (str.toNat + (digitsUp base nb).length) 0, ?_, ?_, fun place outside => ?_⟩
  · rw [uinttostringInto, if_neg valid]
    change (loop (uinttostringTurn str base) digitTurns ⟨nb, UInt8.ofNat ([] : List UInt8).length⟩
      memory).andThen _ = _
    rw [ran, Outcome.returned_andThen, count, reversed, Outcome.returned_andThen, finish]
  · refine CString.of_loadBytes valid
      (fun c member => (uinttostring_valid nb base c member).ne_zero) (by omega) ?_ ?_
    · rw [length]
      exact (Memory.loadBytes_congr fun place _ below => Memory.store8_of_ne (by omega)).trans held'
    · rw [length, Memory.store8_same]
  · rw [Memory.store8_of_ne (by omega), frame' place (by omega), frame place (by omega)]

/-- What `inttostring` leaves in a buffer with room for it. -/
theorem inttostringInto_eq (nb : Int64) (base : Base) (memory : Memory) (valid : str ≠ 0)
    (fits : str.toNat + (inttostring nb base).length < 2 ^ 32) :
    ∃ after, inttostringInto nb str base memory = .returned () after ∧
      CString after str (inttostring nb base) ∧
      ∀ place, place < str.toNat ∨ str.toNat + (inttostring nb base).length < place →
        after place = memory place := by
  rw [inttostringInto, if_neg valid]
  rw [inttostring] at fits ⊢
  by_cases negative : nb < 0
  · rw [if_pos negative, List.length_cons] at fits
    have next : (str + 1).toNat = str.toNat + 1 := toNat_add_one (by omega)
    obtain ⟨after, ran, string, frame⟩ := @uinttostringInto_eq (str + 1) (-nb).toUInt64 base
      (memory.store8 str.toNat minus) (toNat_pos_iff.mp (by omega)) (by omega)
    have sign : after str.toNat = minus := by
      rw [frame _ (Or.inl (by omega)), Memory.store8_same]
    rw [if_pos negative, if_pos negative]
    refine ⟨after, ran, ⟨valid, by decide, sign, string⟩, fun place outside => ?_⟩
    rw [List.length_cons] at outside
    rw [frame place (by omega), Memory.store8_of_ne (by omega)]
  · rw [if_neg negative] at fits
    rw [if_neg negative, if_neg negative]
    exact uinttostringInto_eq nb.toUInt64 base memory valid fits

end Buffer

end Bootloader.Libc
