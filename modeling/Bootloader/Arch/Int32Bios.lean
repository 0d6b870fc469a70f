import Bootloader.Arch.Disk
import Bootloader.Arch.Int32Run

/-!
# What comes through `int32`

The instruction that clears the stack pointer behind the interrupt also clears the carry flag,
before the flags are stored. An answer of the BIOS comes through with its registers, but without
the flag that says whether it is an error.
-/

namespace Bootloader.Arch

open Bootloader.Std CodeBlock

/-- The fields of a `regs16_t` that the disk routines use. -/
def Regs16T.disk (regs : Regs16T) : Regs16 where
  al := regs.ax.toUInt8
  ah := (regs.ax >>> 8).toUInt8
  bx := regs.bx
  cl := regs.cx.toUInt8
  ch := (regs.cx >>> 8).toUInt8
  dl := regs.dx.toUInt8
  dh := (regs.dx >>> 8).toUInt8
  es := regs.es
  cf := regs.ef &&& 1 != 0

/-- Change the carry flag. -/
def Regs16.setCf (regs : Regs16) (cf : Bool) : Regs16 := { regs with cf }

/-- A disk BIOS whose answers are those of some firmware, called by `int32` with the registers
of the request. -/
def BehindInt32 (bios : Bios) : Prop :=
  ∀ regs memory, ∃ image firmware cpu block after carry,
    Int32Call image cpu 0x13 block ∧ Returns firmware image cpu 0x13 block ∧
      int32 image firmware cpu = some after ∧
      (Regs16T.load cpu.memory block.toNat).disk = regs.setCf carry ∧
      (bios regs memory).1 = (Regs16T.load after.memory block.toNat).disk

section Answers

variable {firmware : Firmware} {image : Int32Image} {cpu : Cpu} {number : UInt8} {regs : UInt32}

/-- The bit of the carry flag is clear in what is stored. -/
theorem storedFlags_carry {flags : UInt32} : (storedFlags flags).toUInt16 &&& 1 = 0 := by
  have clear : storedFlags flags &&& 1 = 0 := withFlag_clear
  rw [← UInt16.toNat_inj, UInt16.toNat_and, UInt32.toNat_toUInt16]
  have number := congrArg UInt32.toNat clear
  rw [UInt32.toNat_and] at number
  have one : (1 : UInt32).toNat = 1 := rfl
  have one' : (1 : UInt16).toNat = 1 := rfl
  have zero : (0 : UInt32).toNat = 0 := rfl
  have zero' : (0 : UInt16).toNat = 0 := rfl
  rw [one, zero, Nat.and_one_is_mod] at number
  rw [one', zero', Nat.and_one_is_mod]
  omega

/-- What the disk routines find: the registers that the BIOS left, and no carry. -/
theorem disk_handedOver {returned : Cpu} :
    (handedOver returned).disk = (Regs16T.ofCpu returned).disk.setCf false := by
  have clear : ((handedOver returned).ef &&& 1 != 0) = false := by
    change ((storedFlags returned.flags).toUInt16 &&& 1 != 0) = false
    rw [storedFlags_carry]
    rfl
  rw [Regs16T.disk, clear]
  rfl

/-- What the BIOS finds: the registers of the request. -/
theorem Given.disk {given : Cpu} (made : Given image cpu number regs given) :
    ∃ carry, (Regs16T.ofCpu given).disk =
      (Regs16T.load cpu.memory regs.toNat).disk.setCf carry := by
  rw [made.registers]
  exact ⟨_, rfl⟩

/-- A call of `int32` gives the disk routines the registers of the BIOS, but for the carry. -/
theorem int32_answers (call : Int32Call image cpu number regs)
    (returns : Returns firmware image cpu number regs) :
    ∃ given after, Given image cpu number regs given ∧ int32 image firmware cpu = some after ∧
      (Regs16T.load after.memory regs.toNat).disk =
        (Regs16T.ofCpu (firmware number given)).disk.setCf false := by
  obtain ⟨after, ran, given, made, done⟩ := int32_leads call returns
  exact ⟨given, after, made, ran, by rw [done.block, disk_handedOver]⟩

/-- No answer that comes through `int32` is an error. -/
theorem BehindInt32.cf {bios : Bios} (behind : BehindInt32 bios) {regs : Regs16}
    {memory : Memory} : (bios regs memory).1.cf = false := by
  obtain ⟨image, firmware, cpu, block, after, _, call, returns, ran, _, same⟩ :=
    behind regs memory
  obtain ⟨given, after', _, ran', answer⟩ := int32_answers call returns
  rw [ran] at ran'
  cases ran'
  rw [same, answer]
  rfl

end Answers

section Requests

variable {machine : Machine} {driveNb : UInt8} {geometry : UInt32}

/-- A drive is always reset. -/
theorem diskReset_behind (behind : BehindInt32 (machine.replies 0)) :
    diskReset driveNb machine = (.success, (machine.int13 (driveRequest 0x00 driveNb)).2) := by
  have clear : (machine.int13 (driveRequest 0x00 driveNb)).1.cf = false := behind.cf
  simp only [diskReset, clear, Bool.false_eq_true, if_false]

/-- No geometry request is refused. -/
theorem refused_behind (behind : BehindInt32 (machine.replies 0)) {regs : Regs16} :
    (machine.int13 regs).1.refused = false := by
  have clear : (machine.int13 regs).1.cf = false := behind.cf
  rw [Regs16.refused, clear, Bool.false_and]

end Requests

section Example

variable {memory : Memory} {address : Nat}

/-- The two bytes of a register. -/
theorem toUInt8_load16 : (memory.load16 address).toUInt8 = memory address := by
  have low := (memory address).toNat_lt
  have high := (memory (address + 1)).toNat_lt
  rw [← UInt8.toNat_inj, UInt16.toNat_toUInt8, Memory.load16, Memory.loadLE_two, UInt16.toNat_ofNat']
  omega

theorem toUInt8_load16_high : (memory.load16 address >>> 8).toUInt8 = memory (address + 1) := by
  have low := (memory address).toNat_lt
  have high := (memory (address + 1)).toNat_lt
  have eight : (8 : UInt16).toNat % 16 = 8 := rfl
  rw [← UInt8.toNat_inj, UInt16.toNat_toUInt8, UInt16.toNat_shiftRight, eight, Memory.load16,
    Memory.loadLE_two, UInt16.toNat_ofNat', Nat.shiftRight_eq_div_pow]
  omega

theorem load16_of_bytes {word : UInt16} (low : memory address = word.toUInt8)
    (high : memory (address + 1) = (word >>> 8).toUInt8) : memory.load16 address = word := by
  have bound := word.toNat_lt
  have eight : (8 : UInt16).toNat % 16 = 8 := rfl
  rw [← UInt16.toNat_inj, Memory.load16, Memory.loadLE_two, low, high, UInt16.toNat_ofNat',
    UInt16.toNat_toUInt8, UInt16.toNat_toUInt8, UInt16.toNat_shiftRight, eight,
    Nat.shiftRight_eq_div_pow]
  omega

/-- A `regs16_t` with the registers of a disk request. -/
def requestBlock (regs : Regs16) : List UInt8 :=
  [0, 0, 0, 0, 0, 0, 0, 0, regs.bx.toUInt8, (regs.bx >>> 8).toUInt8, regs.dl, regs.dh, regs.cl,
    regs.ch, regs.al, regs.ah, 0, 0, 0, 0, regs.es.toUInt8, (regs.es >>> 8).toUInt8, 0, 0, 0, 0]

theorem load_requestBlock {regs : Regs16} (holds : memory.Holds address (requestBlock regs)) :
    ∃ carry, (Regs16T.load memory address).disk = regs.setCf carry := by
  refine ⟨(Regs16T.load memory address).ef &&& 1 != 0, ?_⟩
  have bx : memory.load16 (address + 8) = regs.bx :=
    load16_of_bytes (holds.byte (by decide : 8 < 26)) (holds.byte (by decide : 9 < 26))
  have es : memory.load16 (address + 20) = regs.es :=
    load16_of_bytes (holds.byte (by decide : 20 < 26)) (holds.byte (by decide : 21 < 26))
  have dl := holds.byte (by decide : 10 < 26)
  have dh := holds.byte (by decide : 11 < 26)
  have cl := holds.byte (by decide : 12 < 26)
  have ch := holds.byte (by decide : 13 < 26)
  have al := holds.byte (by decide : 14 < 26)
  have ah := holds.byte (by decide : 15 < 26)
  simp only [Regs16T.load, Regs16T.disk, Regs16.setCf, toUInt8_load16, toUInt8_load16_high, bx, es,
    dl, cl, al, Nat.add_assoc, Nat.reduceAdd, dh, ch, ah]
  rfl

/-- A BIOS that refuses everything, and leaves the registers as they are. -/
def refusingFirmware : Firmware := fun _ cpu => cpu.setFlags (withFlag .carry true cpu.flags)

/-- What comes of it through `int32`. -/
def deafBios : Bios := fun regs memory => (regs.setCf false, memory)

theorem deafBios_behind : BehindInt32 deafBios := by
  intro regs memory
  have holds := int32Caller_block 0x13 (requestBlock regs) rfl
  have call := int32Caller_call 0x13 (requestBlock regs)
  have returns : Returns refusingFirmware int32Assembled (int32Caller 0x13 (requestBlock regs)) 0x13
      0x90100 := fun _ _ => ⟨rfl, rfl, rfl, rfl, fun _ _ => rfl⟩
  obtain ⟨given, after, made, ran, answer⟩ := int32_answers call returns
  obtain ⟨carry, asked⟩ := load_requestBlock holds
  obtain ⟨carry', found⟩ := made.disk
  have left : (Regs16T.ofCpu (refusingFirmware 0x13 given)).disk.setCf false =
      (Regs16T.ofCpu given).disk.setCf false := rfl
  have place : (0x90100 : UInt32).toNat = 0x90100 := rfl
  rw [left, found, place, asked] at answer
  exact ⟨_, _, _, 0x90100, after, carry, call, returns, ran, asked, answer.symm⟩

end Example

end Bootloader.Arch
