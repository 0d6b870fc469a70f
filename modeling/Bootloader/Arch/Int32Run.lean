import Bootloader.Arch.Int32Up

/-!
# A whole call of `int32`

`int32_runs_interrupt` says that the BIOS is given the registers of the `regs16_t` and that
the caller gets those it left, with everything else of protected mode as it was.
-/

namespace Bootloader.Arch

open Bootloader.Std CodeBlock

variable {firmware : Firmware} {image : Int32Image} {cpu : Cpu} {number : UInt8} {regs : UInt32}

theorem Lowered.inPlace {prepared lowered : Cpu} (down : Lowered image prepared lowered)
    (made : Prepared image cpu number regs prepared) : image.inPlace lowered.memory = true := by
  rw [down.memory]
  exact made.underway.inPlace

theorem VectorsCalled.inPlace {prepared lowered called : Cpu}
    (vectors : VectorsCalled image lowered called) (call : Int32Call image cpu number regs)
    (made : Prepared image cpu number regs prepared) (down : Lowered image prepared lowered) :
    image.inPlace called.memory = true := by
  have window : windowLow = stack16 - 6 := rfl
  have low : stack16 = 31718 := rfl
  have top : int32Base = 31744 := rfl
  refine (made.underway.stack call fun address away => ?_).inPlace
  rw [vectors.memory, Memory.storeLE_outside (by omega), down.memory]

theorem Raised.inPlace {returned rising raised : Cpu} (up : Raised image cpu rising raised)
    (restored : VectorsRestored image cpu number regs returned rising) :
    image.inPlace raised.memory = true := by
  rw [up.memory]
  exact restored.underway.inPlace

/-- The interrupt, from the first `resetpic` to the second one. -/
theorem interruptBlock_leads {now : Cpu} (call : Int32Call image cpu number regs)
    (returns : Returns firmware image cpu number regs) (set : VectorsSet image cpu number regs now) :
    Leads firmware .word (interruptBlock image).instructions now fun after =>
      ∃ given, Given image cpu number regs given ∧
        RealMode image cpu number regs (firmware number given) ∧
        Stored image (firmware number given) after := by
  refine given_leads set fun given made => ?_
  have mode := made.toRealMode.answered call (returns given made)
  have narrow := codeWidth_low made.code
  refine Leads.cons narrow (int_execute made) ?_
  obtain ⟨after, ran, stored⟩ := @stored_leads firmware image cpu number regs _ mode
  exact ⟨after, ran, given, made, mode, stored⟩

/-- The blocks lead one to the other, down to the BIOS and back. -/
theorem int32_leads (call : Int32Call image cpu number regs)
    (returns : Returns firmware image cpu number regs) :
    RunsTo firmware (int32Blocks image) cpu fun after =>
      ∃ given, Given image cpu number regs given ∧
        Int32Done cpu regs (firmware number given) after := by
  refine RunsTo.cons call.entered rfl (int32Block_leads call) fun copied relocated => ?_
  obtain ⟨code, _⟩ := holds_bytes (relocated.copied call)
  refine RunsTo.cons relocated.ip (inPlace_of_bytes fun place within _ => code.byte within)
    (relocBlock_leads call relocated) fun prepared made => ?_
  refine RunsTo.cons made.ip made.underway.inPlace (pMode16Block_leads call made)
    fun lowered down => ?_
  refine RunsTo.cons down.ip (down.inPlace made) (rMode16Block_leads made down)
    fun called vectors => ?_
  refine RunsTo.cons vectors.ip (vectors.inPlace call made down)
    (resetpicBlock_leads (vectors.call down)) fun now reset => ?_
  have set := VectorsSet.of_reset call made down vectors reset
  refine RunsTo.cons set.ip set.underway.inPlace (interruptBlock_leads call returns set)
    fun stored interrupt => ?_
  obtain ⟨given, handed, mode, block⟩ := interrupt
  refine RunsTo.cons block.ip (mode.underway.stack call block.outside).inPlace
    (resetpicBlock_leads (resetpicCall_of block.code block.stack block.stackPointer block.next))
    fun back reset => ?_
  have restored := VectorsRestored.of_reset call mode block reset
  refine RunsTo.cons restored.ip restored.underway.inPlace
    (returnBlock_leads call restored.toRealMode) fun raised up => ?_
  refine RunsTo.cons up.ip (up.inPlace restored) (pMode32Block_leads call restored up)
    fun after done => RunsTo.nil ⟨given, handed, done⟩

/-- `int32` always comes back. The BIOS runs the interrupt that was asked for on the registers
of the `regs16_t`; the caller finds the registers the BIOS left in the same place, and its own
registers, segments, tables and mode as they were. -/
theorem int32_runs_interrupt (call : Int32Call image cpu number regs)
    (returns : Returns firmware image cpu number regs) :
    ∃ given after, Given image cpu number regs given ∧ int32 image firmware cpu = some after ∧
      Int32Done cpu regs (firmware number given) after := by
  obtain ⟨after, ran, given, made, done⟩ := int32_leads call returns
  exact ⟨given, after, made, ran, done⟩

/-- The bytes of `int32` behind `reloc`. -/
def int32Code : List UInt8 :=
  [0x89, 0x25, 0xef, 0x7c, 0x00, 0x00, 0x0f, 0x01, 0x0d, 0xf3, 0x7c, 0x00, 0x00, 0x0f, 0x01, 0x05,
    0xf9, 0x7c, 0x00, 0x00, 0x0f, 0x01, 0x15, 0x2d, 0x7d, 0x00, 0x00, 0x8d, 0x74, 0x24, 0x24, 0xad,
    0xa2, 0x6f, 0x7c, 0x00, 0x00, 0x8b, 0x36, 0xbf, 0xe6, 0x7b, 0x00, 0x00, 0xb9, 0x1a, 0x00, 0x00,
    0x00, 0x89, 0xfc, 0xf3, 0xa4, 0x66, 0xea, 0x3b, 0x7c, 0x18, 0x00, 0xb8, 0x20, 0x00, 0x8e, 0xd8,
    0x8e, 0xc0, 0x8e, 0xe0, 0x8e, 0xe8, 0x8e, 0xd0, 0x0f, 0x20, 0xc0, 0x24, 0xfe, 0x0f, 0x22, 0xc0,
    0xea, 0x55, 0x7c, 0x00, 0x00, 0x31, 0xc0, 0x8e, 0xd8, 0x8e, 0xd0, 0x0f, 0x01, 0x1e, 0xff, 0x7c,
    0xbb, 0x70, 0x08, 0xe8, 0x68, 0x00, 0x61, 0x0f, 0xa9, 0x0f, 0xa1, 0x07, 0x1f, 0xfb, 0xcd, 0x00,
    0xfa, 0x31, 0xe4, 0x8e, 0xd4, 0xbc, 0x00, 0x7c, 0x9c, 0x1e, 0x06, 0x0f, 0xa0, 0x0f, 0xa8, 0x60,
    0xbb, 0x28, 0x20, 0xe8, 0x48, 0x00, 0x0f, 0x20, 0xc0, 0x66, 0x40, 0x0f, 0x22, 0xc0, 0x66, 0xea,
    0x96, 0x7c, 0x00, 0x00, 0x08, 0x00, 0x66, 0xb8, 0x10, 0x00, 0x8e, 0xd8, 0x8e, 0xc0, 0x8e, 0xe0,
    0x8e, 0xe8, 0x8e, 0xd0, 0x0f, 0x01, 0x15, 0xf9, 0x7c, 0x00, 0x00, 0x0f, 0x01, 0x1d, 0xf3, 0x7c,
    0x00, 0x00, 0x8b, 0x25, 0xef, 0x7c, 0x00, 0x00, 0xbe, 0xe6, 0x7b, 0x00, 0x00, 0x8d, 0x7c, 0x24,
    0x28, 0x8b, 0x3f, 0xb9, 0x1a, 0x00, 0x00, 0x00, 0xfc, 0xf3, 0xa4, 0x61, 0xfb, 0xc3, 0x66, 0x50,
    0xb0, 0x11, 0xe6, 0x20, 0xe6, 0xa0, 0x88, 0xf8, 0xe6, 0x21, 0x88, 0xd8, 0xe6, 0xa1, 0xb0, 0x04,
    0xe6, 0x21, 0xd0, 0xe8, 0xe6, 0xa1, 0xd0, 0xe8, 0xe6, 0x21, 0xe6, 0xa1, 0x66, 0x58, 0xc3]

set_option maxRecDepth 2000 in
theorem length_int32Code : int32Code.length = 239 := rfl

/-- `int32`, linked to an address above a megabyte. -/
def int32Assembled : Int32Image where
  entry := 0x100000
  reloc := 0x100019
  code := int32Code
  pMode16 := 0x3b
  rMode16 := 0x55
  vectorsSet := 0x66
  ib := 0x6f
  vectorsRestored := 0x86
  pMode32 := 0x96
  resetpic := 0xce
  ib_lt := by
    rw [length_int32Code]
    decide
  labels_lt := by
    rw [length_int32Code]
    decide
  fits := by
    rw [length_int32Code]
    decide
  linked := by
    rw [length_int32Code]
    decide

theorem size_int32Assembled : int32Assembled.size = 307 :=
  congrArg (· + 68) length_int32Code

/-- The arguments on the stack, behind the return address. -/
def int32Frame (number : UInt8) : List UInt8 :=
  doubleWord 0x100400 ++ [number, 0, 0, 0] ++ doubleWord 0x90100

/-- Memory with a `regs16_t` at 0x90100 and the arguments at 0x90000. -/
def int32Arguments (number : UInt8) (block : List UInt8) : Memory :=
  (Memory.storeBytes (fun _ => 0) 0x90100 block).storeBytes 0x90000 (int32Frame number)

/-- The processor when code at 0x100000 is called. -/
def callerOf (code : List UInt8) (number : UInt8) (block : List UInt8) : Cpu where
  register := fun register => if register = .esp then 0x90000 else 0
  segment := flatSegments
  flags := 0x202
  cr0 := 0x11
  gdtr := ⟨0x18, 0x110000⟩
  idtr := ⟨0x7ff, 0x112000⟩
  ip := 0x100000
  memory := (int32Arguments number block).storeBytes 0x100019 code
  ports := []

/-- The processor when the code above is called. -/
def int32Caller (number : UInt8) (block : List UInt8) : Cpu :=
  callerOf int32Assembled.bytes number block

/-- A BIOS that says how much memory there is below a megabyte. -/
def sizeFirmware : Firmware := fun number cpu =>
  if number = 0x12 then
    (cpu.set .word .eax 639).setFlags (withFlag .carry false cpu.flags)
  else cpu.setFlags (withFlag .carry true cpu.flags)

theorem callerOf_below (code : List UInt8) (number : UInt8) (block : List UInt8) {address : Nat}
    (below : address < 0x100019) :
    (callerOf code number block).memory address = int32Arguments number block address :=
  Memory.storeBytes_outside (Or.inl below)

theorem callerOf_code (code : List UInt8) (number : UInt8) (block : List UInt8) :
    (callerOf code number block).memory.Holds 0x100019 code :=
  Memory.loadBytes_storeBytes

theorem int32Caller_below (number : UInt8) (block : List UInt8) {address : Nat}
    (below : address < 0x100019) :
    (int32Caller number block).memory address = int32Arguments number block address :=
  callerOf_below _ _ _ below

theorem int32Caller_call (number : UInt8) (block : List UInt8) :
    Int32Call int32Assembled (int32Caller number block) number 0x90100 := by
  have stored : (int32Arguments number block).Holds 0x90000 (int32Frame number) :=
    Memory.loadBytes_storeBytes
  have frame := stored.congr fun place within => int32Caller_below number block
    (Nat.lt_trans (Nat.add_lt_add_left within 0x90000) (by decide : 0x90000 + 12 < 0x100019))
  obtain ⟨front, regs⟩ := Memory.holds_append.mp frame
  obtain ⟨_, byte⟩ := Memory.holds_append.mp front
  have size := size_int32Assembled
  have reloc : int32Assembled.reloc.toNat = 0x100019 := rfl
  have esp : ((int32Caller number block).register .esp).toNat = 0x90000 := rfl
  have pointer : (0x90100 : UInt32).toNat = 0x90100 := rfl
  have low : windowLow = 31712 := rfl
  have base : int32Base = 31744 := rfl
  have short : regs16Size = 26 := rfl
  constructor
  case entered => rfl
  case segments => rfl
  case mode => exact (by decide : (0x11 : UInt32) &&& 1 = 1)
  case loaded =>
    rw [reloc]
    exact callerOf_code _ _ _
  case frame_room => omega
  case number_arg => exact byte.byte (by decide : 0 < 4)
  case regs_arg => exact regs.doubleWord
  case regs_room => omega
  case window_image => exact Or.inl (by omega)
  case window_frame => exact Or.inl (by omega)
  case window_regs => exact Or.inl (by omega)
  case frame_image => exact Or.inl (by omega)
  case frame_regs => exact Or.inl (by omega)

/-- The bytes that must stay in that call are below its stack frame or above a megabyte. -/
theorem kept_int32Caller {number : UInt8} {block : List UInt8} {address : Nat}
    (kept : Kept int32Assembled (int32Caller number block) address) :
    address < 0x8000 ∨ 0x80000 ≤ address := by
  have size := size_int32Assembled
  have reloc : int32Assembled.reloc.toNat = 0x100019 := rfl
  have esp : ((int32Caller number block).register .esp).toNat = 0x90000 := rfl
  have base : int32Base = 31744 := rfl
  rcases kept with ⟨_, below⟩ | ⟨above, _⟩ | ⟨above, _⟩
  · exact Or.inl (by omega)
  · exact Or.inr (by omega)
  · exact Or.inr (by omega)

theorem sizeFirmware_returned {kept : Nat → Prop} (number : UInt8) (given : Cpu) :
    Returned kept given (sizeFirmware number given) := by
  rw [sizeFirmware]
  split
  · exact ⟨rfl, rfl, rfl, rfl, fun _ _ => rfl⟩
  · exact ⟨rfl, rfl, rfl, rfl, fun _ _ => rfl⟩

/-- A BIOS that reads a sector of a disk of zeros, at the address it is given. -/
def sectorFirmware : Firmware := fun number cpu =>
  if number = 0x13 ∧ cpu.byte .ah = 0x02 then
    (cpu.setMemory (cpu.memory.storeBytes
      (16 * (cpu.segment .es).selector.toNat + (cpu.register .ebx).toUInt16.toNat)
      (List.replicate 512 0))).setFlags (withFlag .carry false cpu.flags)
  else cpu.setFlags (withFlag .carry true cpu.flags)

/-- The registers of a request for one sector, to be read to 0x10000. -/
def sectorBlock : List UInt8 :=
  [0, 0, 0, 0, 0, 0, 0, 0, 0, 0, 0x80, 0, 1, 0, 1, 2, 0, 0, 0, 0, 0x00, 0x10, 0, 0, 0, 0]

theorem int32Caller_block (number : UInt8) (block : List UInt8) (short : block.length = 26) :
    (int32Caller number block).memory.Holds 0x90100 block := by
  have stored : (Memory.storeBytes (fun _ => 0) 0x90100 block).Holds 0x90100 block :=
    Memory.loadBytes_storeBytes
  refine stored.congr fun place within => ?_
  have frame : (int32Frame number).length = 12 := rfl
  rw [int32Caller_below _ _ (by omega)]
  exact Memory.storeBytes_outside (Or.inr (by omega))

/-- Where the sector goes. -/
theorem sectorBlock_given {given : Cpu}
    (made : Given int32Assembled (int32Caller 0x13 sectorBlock) 0x13 0x90100 given) :
    (given.segment .es).selector = 0x1000 ∧ (given.register .ebx).toUInt16 = 0 := by
  have holds := int32Caller_block 0x13 sectorBlock rfl
  have place : (0x90100 : UInt32).toNat = 0x90100 := rfl
  have registers := made.registers
  rw [place] at registers
  have es : (given.segment .es).selector =
      (int32Caller 0x13 sectorBlock).memory.load16 (0x90100 + 20) := congrArg Regs16T.es registers
  have bx : (given.register .ebx).toUInt16 =
      (int32Caller 0x13 sectorBlock).memory.load16 (0x90100 + 8) := congrArg Regs16T.bx registers
  rw [es, bx, Memory.load16, Memory.load16, Memory.loadLE_two, Memory.loadLE_two,
    holds.byte (by decide : 20 < 26), holds.byte (by decide : 21 < 26),
    holds.byte (by decide : 8 < 26), holds.byte (by decide : 9 < 26)]
  exact ⟨rfl, rfl⟩

theorem sectorFirmware_returns :
    Returns sectorFirmware int32Assembled (int32Caller 0x13 sectorBlock) 0x13 0x90100 := by
  intro given made
  obtain ⟨es, bx⟩ := sectorBlock_given made
  obtain ⟨sector, named⟩ : ∃ sector, List.replicate 512 (0 : UInt8) = sector := ⟨_, rfl⟩
  have length : sector.length = 512 := by rw [← named, List.length_replicate]
  rw [sectorFirmware, named]
  split
  · refine ⟨rfl, rfl, rfl, rfl, fun address kept => ?_⟩
    have away := kept_int32Caller kept
    have buffer : 16 * (given.segment .es).selector.toNat +
        (given.register .ebx).toUInt16.toNat = 0x10000 := by
      rw [es, bx]
      rfl
    exact Memory.storeBytes_outside (by omega)
  · exact ⟨rfl, rfl, rfl, rfl, fun _ _ => rfl⟩

theorem int32_runs_sector_read :
    ∃ given after, Given int32Assembled (int32Caller 0x13 sectorBlock) 0x13 0x90100 given ∧
      int32 int32Assembled sectorFirmware (int32Caller 0x13 sectorBlock) = some after ∧
      Int32Done (int32Caller 0x13 sectorBlock) 0x90100 (sectorFirmware 0x13 given) after :=
  int32_runs_interrupt (int32Caller_call 0x13 sectorBlock) sectorFirmware_returns

end Bootloader.Arch
