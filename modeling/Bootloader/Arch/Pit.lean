import Bootloader.Arch.Pic
import Bootloader.Std.Program
import Bootloader.Std.Word

/-!
# The interval timer

`i86_pit_start_counter` sends the 8253 a control word and the two bytes of a divisor.
`pit_programs_latch` says what the chip is told: the counter and its mode as requested, but to
latch the counter, since `PIT_RLMODE_DATA` is shifted into its place twice.
`pit_divisor_exact_iff` says which requests the sixteen bits of the divisor have room for.
-/

namespace Bootloader.Arch

open Bootloader.Std

/-- `PIT_CLK_RATE`. -/
def pitClkRate : UInt32 := 1193181

/-- `PIT_REG_COMMAND`. -/
def pitRegCommand : UInt16 := 0x43

/-- `PIT_MASK_BINCOUNTER`. -/
def pitMaskBincounter : UInt8 := 0x01

/-- `PIT_MASK_OPMODE`. -/
def pitMaskOpmode : UInt8 := 0x0E

/-- `PIT_MASK_RLMODE`. -/
def pitMaskRlmode : UInt8 := 0x30

/-- `PIT_MASK_COUNTER`. -/
def pitMaskCounter : UInt8 := 0xC0

/-- `PIT_BINCOUNTER_BINARY`. -/
def pitBincounterBinary : UInt8 := 0

/-- `PIT_RLMODE_LATCH`. -/
def pitRlmodeLatch : UInt8 := (0 : UInt8) <<< 4

/-- `PIT_RLMODE_DATA`: the low byte and then the high one. -/
def pitRlmodeData : UInt8 := (3 : UInt8) <<< 4

/-- `enum pit_counterno_t`. -/
inductive PitCounterno where
  | counter0
  | counter1
  | counter2
deriving DecidableEq, Repr

/-- The number of a counter. -/
def PitCounterno.code : PitCounterno → UInt8
  | .counter0 => 0
  | .counter1 => 1
  | .counter2 => 2

/-- `enum pit_opmode_t`. -/
inductive PitOpmode where
  | terminalCount
  | programmableOneshot
  | rateGenerator
  | squareWaveGenerator
  | softwareTriggeredStrobe
  | hardwareTriggeredStrobe
deriving DecidableEq, Repr

/-- The number of an operating mode. -/
def PitOpmode.code : PitOpmode → UInt8
  | .terminalCount => 0
  | .programmableOneshot => 1
  | .rateGenerator => 2
  | .squareWaveGenerator => 3
  | .softwareTriggeredStrobe => 4
  | .hardwareTriggeredStrobe => 5

/-- `pit_mode_t`. -/
structure PitMode where
  opmode : PitOpmode
  counter : PitCounterno
deriving DecidableEq, Repr

/-- `enum pit_config_val_t`. -/
inductive PitConfigVal where
  | frequency
  | divisor
deriving DecidableEq, Repr

/-- `pit_set_bincounter`: the macros compute in `int`. -/
def pitSetBincounter (ocw binmode : UInt8) : UInt32 :=
  (ocw.toUInt32 &&& ~~~pitMaskBincounter.toUInt32) ||| binmode.toUInt32

/-- `pit_set_opmode`. -/
def pitSetOpmode (ocw opmode : UInt8) : UInt32 :=
  (ocw.toUInt32 &&& ~~~pitMaskOpmode.toUInt32) ||| opmode.toUInt32 <<< 1

/-- `pit_set_rlmode`. -/
def pitSetRlmode (ocw rlmode : UInt8) : UInt32 :=
  (ocw.toUInt32 &&& ~~~pitMaskRlmode.toUInt32) ||| rlmode.toUInt32 <<< 4

/-- `pit_set_counter`. -/
def pitSetCounter (ocw counter : UInt8) : UInt32 :=
  (ocw.toUInt32 &&& ~~~pitMaskCounter.toUInt32) ||| counter.toUInt32 <<< 6

/-- A division; by zero, it raises an exception. -/
def divide (dividend divisor : UInt32) (ports : List Outb) : Outcome (List Outb) UInt32 :=
  if divisor = 0 then .panicked "divide error" ports else .returned (dividend / divisor) ports

/-- The variables `divisor` and `freq` of `i86_pit_start_counter`. -/
def pitDivisor (val : UInt32) (typeVal : PitConfigVal) (ports : List Outb) :
    Outcome (List Outb) (UInt16 × UInt32) :=
  match typeVal with
  | .frequency =>
      (divide pitClkRate val ports).andThen fun quotient ports =>
        .returned (quotient.toUInt16, val) ports
  | .divisor =>
      (divide pitClkRate val.toUInt16.toUInt32 ports).andThen fun freq ports =>
        .returned (val.toUInt16, freq) ports

/-- The variable `ocw` of `i86_pit_start_counter`. -/
def pitOcw (mode : PitMode) : UInt8 :=
  let ocw : UInt8 := 0
  let ocw := (pitSetBincounter ocw pitBincounterBinary).toUInt8
  let ocw := (pitSetOpmode ocw mode.opmode.code).toUInt8
  let ocw := (pitSetRlmode ocw pitRlmodeData).toUInt8
  (pitSetCounter ocw mode.counter.code).toUInt8

/-- `i86_pit_start_counter`. -/
def i86PitStartCounter (val : UInt32) (typeVal : PitConfigVal) (mode : PitMode)
    (ports : List Outb) : Outcome (List Outb) Unit :=
  if typeVal = .frequency ∧ ¬ (val ≠ 0 ∧ val ≤ pitClkRate) then
    .panicked "val != 0 && val <= PIT_CLK_RATE" ports
  else
    (pitDivisor val typeVal ports).andThen fun (divisor, _) ports =>
      let pitCounterReg := 0x40 + mode.counter.code.toUInt16
      .returned () (ports ++
        [⟨pitRegCommand, pitOcw mode⟩, ⟨pitCounterReg, (divisor &&& 0x00FF).toUInt8⟩,
          ⟨pitCounterReg, ((divisor >>> 8) &&& 0x00FF).toUInt8⟩])

/-- What the assertion of `i86_pit_start_counter` admits. -/
def PitAdmits (val : UInt32) (typeVal : PitConfigVal) : Prop :=
  typeVal = .frequency → val ≠ 0 ∧ val ≤ pitClkRate

/-- The divisor that is requested. -/
def requestedDivisor (val : UInt32) : PitConfigVal → Nat
  | .frequency => pitClkRate.toNat / val.toNat
  | .divisor => val.toNat

/-- The chip is sent a control word for the counter and its mode, to count in binary with this
access to the counter, and the two bytes of the divisor. -/
def Programs (access : UInt8) (val : UInt32) (typeVal : PitConfigVal) (mode : PitMode)
    (ports : List Outb) : Prop :=
  ∃ ocw low high,
    i86PitStartCounter val typeVal mode ports = .returned () (ports ++
      [⟨pitRegCommand, ocw⟩, ⟨0x40 + mode.counter.code.toUInt16, low⟩,
        ⟨0x40 + mode.counter.code.toUInt16, high⟩]) ∧
    ocw &&& pitMaskCounter = mode.counter.code <<< 6 ∧
    ocw &&& pitMaskOpmode = mode.opmode.code <<< 1 ∧
    ocw &&& pitMaskBincounter = pitBincounterBinary ∧
    ocw &&& pitMaskRlmode = access ∧
    low.toNat + 256 * high.toNat = requestedDivisor val typeVal

/-- No division is by zero, and the divisor is the one that is requested. -/
def DivisorExact (val : UInt32) (typeVal : PitConfigVal) (mode : PitMode) (ports : List Outb) :
    Prop :=
  ∃ after divisor freq, i86PitStartCounter val typeVal mode ports = .returned () after ∧
    pitDivisor val typeVal ports = .returned (divisor, freq) ports ∧
      divisor.toNat = requestedDivisor val typeVal

section Divisors

variable {val : UInt32} {typeVal : PitConfigVal} {mode : PitMode} {ports : List Outb}

/-- A request that has room in sixteen bits is divided as requested. -/
theorem pitDivisor_exact (admits : PitAdmits val typeVal)
    (positive : 0 < requestedDivisor val typeVal) (fits : requestedDivisor val typeVal < 2 ^ 16) :
    ∃ divisor freq, pitDivisor val typeVal ports = .returned (divisor, freq) ports ∧
      divisor.toNat = requestedDivisor val typeVal := by
  cases typeVal with
  | frequency =>
      have nonzero : ¬ val = 0 := (admits rfl).1
      simp only [pitDivisor, divide, if_neg nonzero, Outcome.returned_andThen]
      refine ⟨_, _, rfl, ?_⟩
      rw [UInt32.toNat_toUInt16, UInt32.toNat_div]
      exact Nat.mod_eq_of_lt fits
  | divisor =>
      have whole : val.toUInt16.toNat = val.toNat := by
        rw [UInt32.toNat_toUInt16]
        exact Nat.mod_eq_of_lt fits
      have nonzero : ¬ val.toUInt16.toUInt32 = 0 := by
        rw [← UInt32.toNat_inj, UInt16.toNat_toUInt32, whole]
        exact Nat.ne_of_gt positive
      simp only [pitDivisor, divide, if_neg nonzero, Outcome.returned_andThen]
      exact ⟨_, _, rfl, whole⟩

/-- What is sent when the divisions go through. -/
theorem i86PitStartCounter_eq {divisor : UInt16} {freq : UInt32} (admits : PitAdmits val typeVal)
    (ran : pitDivisor val typeVal ports = .returned (divisor, freq) ports) :
    i86PitStartCounter val typeVal mode ports = .returned () (ports ++
      [⟨pitRegCommand, pitOcw mode⟩,
        ⟨0x40 + mode.counter.code.toUInt16, (divisor &&& 0x00FF).toUInt8⟩,
        ⟨0x40 + mode.counter.code.toUInt16, ((divisor >>> 8) &&& 0x00FF).toUInt8⟩]) := by
  have passed : ¬ (typeVal = .frequency ∧ ¬ (val ≠ 0 ∧ val ≤ pitClkRate)) :=
    fun fails => fails.2 (admits fails.1)
  rw [i86PitStartCounter, if_neg passed, ran]
  rfl

/-- The sixteen bits of the divisor are enough, and it is not zero, exactly for frequencies from
19 Hz on and for divisors from 1 to 65535. -/
theorem pit_divisor_exact_iff (admits : PitAdmits val typeVal) (mode : PitMode)
    (ports : List Outb) :
    DivisorExact val typeVal mode ports ↔
      match typeVal with
      | .frequency => 19 ≤ val.toNat
      | .divisor => 0 < val.toNat ∧ val.toNat < 2 ^ 16 := by
  have exact_of (atLeastOne : 0 < requestedDivisor val typeVal)
      (fits : requestedDivisor val typeVal < 2 ^ 16) : DivisorExact val typeVal mode ports := by
    obtain ⟨divisor, freq, ran, exact⟩ := @pitDivisor_exact _ _ ports admits atLeastOne fits
    exact ⟨_, divisor, freq, i86PitStartCounter_eq admits ran, ran, exact⟩
  cases typeVal with
  | frequency =>
      obtain ⟨nonzero, atMost⟩ := admits rfl
      have rate : pitClkRate.toNat = 1193181 := rfl
      have positive : 0 < val.toNat := toNat_pos_iff.mpr nonzero
      have small := UInt32.le_iff_toNat_le.mp atMost
      constructor
      · rintro ⟨_, divisor, _, _, _, exact⟩
        have fits := divisor.toNat_lt
        rw [exact, requestedDivisor, Nat.div_lt_iff_lt_mul positive, rate] at fits
        omega
      · intro large
        have large : 19 ≤ val.toNat := large
        refine exact_of (Nat.div_pos small positive) ?_
        rw [requestedDivisor, Nat.div_lt_iff_lt_mul positive, rate]
        omega
  | divisor =>
      constructor
      · rintro ⟨_, divisor, freq, _, ran, exact⟩
        have whole : divisor.toNat = val.toNat := exact
        refine ⟨Nat.pos_of_ne_zero fun zero => ?_, whole ▸ divisor.toNat_lt⟩
        obtain rfl : val = 0 := UInt32.toNat_inj.mp zero
        cases ran
      · rintro ⟨atLeastOne, fits⟩
        exact exact_of atLeastOne fits

/-- A frequency of 100 Hz, that of the system clock. -/
theorem pit_divisor_exact_iff_clock :
    DivisorExact 100 .frequency ⟨.squareWaveGenerator, .counter0⟩ [] ↔ 19 ≤ (100 : UInt32).toNat :=
  pit_divisor_exact_iff (fun _ => by decide) _ []

/-- One Hertz is admitted, and needs more than sixteen bits. -/
theorem pit_divisor_loses_bits :
    PitAdmits 1 .frequency ∧
      ¬ DivisorExact 1 .frequency ⟨.squareWaveGenerator, .counter0⟩ [] := by
  refine ⟨fun _ => by decide, ?_⟩
  rintro ⟨_, divisor, _, _, _, exact⟩
  have fits := divisor.toNat_lt
  rw [exact] at fits
  exact absurd fits (by decide)

end Divisors

section Words

variable {val : UInt32} {typeVal : PitConfigVal} {mode : PitMode} {ports : List Outb}

/-- The fields of the control word: the access has been shifted out of it. -/
theorem pitOcw_fields (mode : PitMode) :
    pitOcw mode &&& pitMaskCounter = mode.counter.code <<< 6 ∧
      pitOcw mode &&& pitMaskOpmode = mode.opmode.code <<< 1 ∧
      pitOcw mode &&& pitMaskBincounter = pitBincounterBinary ∧
      pitOcw mode &&& pitMaskRlmode = pitRlmodeLatch := by
  obtain ⟨opmode, counter⟩ := mode
  cases opmode <;> cases counter <;> decide

/-- The two bytes of a divisor. -/
theorem divisor_bytes (divisor : UInt16) :
    (divisor &&& 0x00FF).toUInt8.toNat + 256 * ((divisor >>> 8) &&& 0x00FF).toUInt8.toNat =
      divisor.toNat := by
  have bound := divisor.toNat_lt
  have mask : (0x00FF : UInt16).toNat = 2 ^ 8 - 1 := rfl
  have eight : (8 : UInt16).toNat % 16 = 8 := rfl
  rw [UInt16.toNat_toUInt8, UInt16.toNat_toUInt8, UInt16.toNat_and, UInt16.toNat_and,
    UInt16.toNat_shiftRight, mask, eight, Nat.and_two_pow_sub_one_eq_mod,
    Nat.and_two_pow_sub_one_eq_mod, Nat.shiftRight_eq_div_pow]
  omega

/-- Whatever is requested, the chip is told to latch the counter instead of taking two bytes;
everything else is as requested. -/
theorem pit_programs_latch (admits : PitAdmits val typeVal)
    (positive : 0 < requestedDivisor val typeVal) (fits : requestedDivisor val typeVal < 2 ^ 16)
    (mode : PitMode) (ports : List Outb) :
    ¬ Programs pitRlmodeData val typeVal mode ports ∧
      Programs pitRlmodeLatch val typeVal mode ports := by
  obtain ⟨divisor, freq, ran, exact⟩ := @pitDivisor_exact _ _ ports admits positive fits
  have sent := @i86PitStartCounter_eq _ _ mode ports _ _ admits ran
  obtain ⟨counter, opmode, binary, access⟩ := pitOcw_fields mode
  constructor
  · rintro ⟨ocw, low, high, sent', _, _, _, access', _⟩
    rw [sent] at sent'
    simp only [Outcome.returned.injEq, List.append_cancel_left_eq, List.cons.injEq,
      Outb.mk.injEq, true_and] at sent'
    rw [← sent'.1, access] at access'
    exact absurd access' (by decide)
  · exact ⟨_, _, _, sent, counter, opmode, binary, access, (divisor_bytes divisor).trans exact⟩

theorem pit_programs_latch_clock :
    ¬ Programs pitRlmodeData 100 .frequency ⟨.squareWaveGenerator, .counter0⟩ [] ∧
      Programs pitRlmodeLatch 100 .frequency ⟨.squareWaveGenerator, .counter0⟩ [] :=
  pit_programs_latch (fun _ => by decide) (by decide) (by decide) _ []

/-- The clock is never programmed to take the divisor that it is sent. -/
theorem clock_not_programmed :
    PitAdmits 100 .frequency ∧
      ¬ Programs pitRlmodeData 100 .frequency ⟨.squareWaveGenerator, .counter0⟩ [] := by
  refine ⟨fun _ => by decide, ?_⟩
  rintro ⟨ocw, low, high, sent, _, _, _, access, _⟩
  cases sent
  exact absurd access (by decide)

end Words

end Bootloader.Arch
