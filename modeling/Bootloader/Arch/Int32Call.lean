import Bootloader.Arch.Int32
import Bootloader.Std.CpuRules

/-!
# What `int32` relies on

A call of `int32` finds the processor in flat protected mode, its arguments on the stack and
its own bytes where the linker put them, and none of these where it copies itself to.
`Underway` is what memory holds from the copy to the return; it survives everything that
keeps the bytes of `Kept`, the BIOS among it.
-/

namespace Bootloader.Arch

open Bootloader.Std

/-- The segments of protected mode: all of them cover all addresses. -/
def flatSegments (register : SegmentRegister) : Segment :=
  Segment.flat (if register = .cs then code32 else data32)

/-- The segments while `int32` is in its 16-bit protected mode and behind: they begin at 0 and
are a megabyte long. -/
def lowSegment (selector : UInt16) : Segment where
  selector
  base := 0
  limit := 0xfffff
  width := .word

section Segments

variable {cpu : Cpu} {selector : UInt16} {count : Nat}

theorem codeWidth_low (code : cpu.segment .cs = lowSegment selector) : cpu.codeWidth = .word := by
  rw [Cpu.codeWidth, code]
  rfl

theorem stackWidth_low (stack : cpu.segment .ss = lowSegment selector) :
    cpu.stackWidth = .word := by
  rw [Cpu.stackWidth, stack]
  rfl

theorem codeWidth_flat (code : cpu.segment .cs = flatSegments .cs) : cpu.codeWidth = .long := by
  rw [Cpu.codeWidth, code]
  rfl

/-- In flat segments the stack is of 32 bits, and where ESP is. -/
theorem stackWidth_flat (segments : cpu.segment = flatSegments) : cpu.stackWidth = .long := by
  rw [Cpu.stackWidth, segments]
  rfl

theorem stackPointer_flat (segments : cpu.segment = flatSegments) :
    cpu.stackPointer = cpu.register .esp := by
  rw [Cpu.stackPointer, stackWidth_flat segments]
  rfl

theorem stackTop_flat (segments : cpu.segment = flatSegments) :
    cpu.stackTop = (cpu.register .esp).toNat := by
  rw [Cpu.stackTop, stackPointer_flat segments, segments]
  exact Nat.zero_add _

theorem room_flat (segments : cpu.segment = flatSegments)
    (above : count ≤ (cpu.register .esp).toNat) : cpu.Room count := by
  have bound := (cpu.register .esp).toNat_lt
  have limit : (cpu.segment .ss).limit = 0xffffffff := by
    rw [segments]
    rfl
  have base : (cpu.segment .ss).base = 0 := by
    rw [segments]
    rfl
  have pointer := stackPointer_flat segments
  exact ⟨by rwa [pointer], by rw [pointer]; omega, by rw [pointer]; omega⟩

theorem filled_flat (segments : cpu.segment = flatSegments)
    (below : (cpu.register .esp).toNat + count < 2 ^ 32) : cpu.Filled count := by
  have mask : cpu.stackWidth.mask.toNat = 0xffffffff := by
    rw [stackWidth_flat segments]
    rfl
  have limit : (cpu.segment .ss).limit = 0xffffffff := by
    rw [segments]
    rfl
  have base : (cpu.segment .ss).base = 0 := by
    rw [segments]
    rfl
  have pointer := stackPointer_flat segments
  exact ⟨by rw [pointer]; omega, by rw [pointer]; omega, by rw [pointer]; omega⟩

end Segments

/-- The first address below `INT32_BASE` that `int32` writes: the 16-bit stack holds a
`regs16_t`, a return address and EAX. -/
def windowLow : Nat := stack16 - 6

/-- Two areas have no address in common. -/
def Apart (low high low' high' : Nat) : Prop := high ≤ low' ∨ high' ≤ low

/-- A call of `int32`. -/
structure Int32Call (image : Int32Image) (cpu : Cpu) (number : UInt8) (regs : UInt32) : Prop where
  entered : cpu.ip = image.entry
  segments : cpu.segment = flatSegments
  mode : cpu.cr0 &&& 1 = 1
  loaded : cpu.memory.Holds image.reloc.toNat image.bytes
  frame_room : 32 ≤ (cpu.register .esp).toNat ∧ (cpu.register .esp).toNat + 12 < 2 ^ 32
  number_arg : cpu.memory ((cpu.register .esp).toNat + 4) = number
  regs_arg : cpu.memory.loadLE ((cpu.register .esp).toNat + 8) 4 = regs.toNat
  regs_room : regs.toNat + regs16Size ≤ 2 ^ 32
  window_image : Apart windowLow (int32Base + image.size) image.reloc.toNat
    (image.reloc.toNat + image.size)
  window_frame : Apart windowLow (int32Base + image.size) ((cpu.register .esp).toNat - 32)
    ((cpu.register .esp).toNat + 12)
  window_regs : Apart windowLow (int32Base + image.size) regs.toNat (regs.toNat + regs16Size)
  frame_image : Apart ((cpu.register .esp).toNat - 32) (cpu.register .esp).toNat
    image.reloc.toNat (image.reloc.toNat + image.size)
  frame_regs : Apart ((cpu.register .esp).toNat - 32) ((cpu.register .esp).toNat + 12)
    regs.toNat (regs.toNat + regs16Size)

/-- The bytes that must stay while the BIOS is at work: the copy of the code, the table of
descriptors in the original, and the saved registers and arguments on the stack. -/
def Kept (image : Int32Image) (cpu : Cpu) (address : Nat) : Prop :=
  int32Base ≤ address ∧ address < int32Base + image.size ∨
    image.reloc.toNat + image.gdt16Base ≤ address ∧
      address < image.reloc.toNat + image.gdt16Base + 40 ∨
    (cpu.register .esp).toNat - 32 ≤ address ∧ address < (cpu.register .esp).toNat + 12

/-- A BIOS that has returned to where its interrupt was raised, in real mode and with the stack
segment and the table of descriptors it found, and that has kept the bytes it must. -/
structure Returned (kept : Nat → Prop) (given returned : Cpu) : Prop where
  code : returned.segment .cs = given.segment .cs
  stack : returned.segment .ss = given.segment .ss
  mode : returned.cr0 = given.cr0
  table : returned.gdtr = given.gdtr
  memory : ∀ address, kept address → returned.memory address = given.memory address

/-- What memory holds between the copy of the code and the return, for a call that finds the
processor as `cpu`. -/
structure Underway (image : Int32Image) (cpu : Cpu) (number : UInt8) (regs : UInt32)
    (memory : Memory) : Prop where
  code : ∀ place (within : place < image.code.length), place ≠ image.ib →
    memory (int32Base + place) = image.code[place]
  number_byte : memory (int32Base + image.ib) = number
  stack32 : memory.loadLE (int32Base + image.stack32Ptr) 4 = (cpu.register .esp).toNat - 32
  idt32 : memory.loadLE (int32Base + image.idt32Ptr) 2 = cpu.idtr.limit.toNat ∧
    memory.loadLE (int32Base + image.idt32Ptr + 2) 4 = cpu.idtr.base.toNat
  gdt32 : memory.loadLE (int32Base + image.gdt32Ptr) 2 = cpu.gdtr.limit.toNat ∧
    memory.loadLE (int32Base + image.gdt32Ptr + 2) 4 = cpu.gdtr.base.toNat
  idt16 : memory.Holds (int32Base + image.idt16Ptr) ([0xff, 0x03] ++ doubleWord 0)
  table : memory.Holds (image.reloc.toNat + image.gdt16Base) gdt16
  saved : ∀ index (within : index < generalRegisters.length),
    memory.loadLE ((cpu.register .esp).toNat - 4 * (index + 1)) 4 =
      (cpu.register generalRegisters[index]).toNat
  return' : memory.loadLE (cpu.register .esp).toNat 4 =
    cpu.memory.loadLE (cpu.register .esp).toNat 4
  regs_arg : memory.loadLE ((cpu.register .esp).toNat + 8) 4 = regs.toNat

section Invariant

variable {image : Int32Image} {cpu : Cpu} {number : UInt8} {regs : UInt32} {memory other : Memory}

/-- What is underway survives whatever keeps the bytes of `Kept`. -/
theorem Underway.keep (underway : Underway image cpu number regs memory)
    (room : 32 ≤ (cpu.register .esp).toNat)
    (same : ∀ address, Kept image cpu address → other address = memory address) :
    Underway image cpu number regs other := by
  have ib := image.ib_lt
  have copy : ∀ place, place < image.size → other (int32Base + place) = memory (int32Base + place) :=
    fun place within => same _ (Or.inl ⟨by omega, by omega⟩)
  have stack : ∀ address, (cpu.register .esp).toNat - 32 ≤ address →
      address < (cpu.register .esp).toNat + 12 → other address = memory address :=
    fun address above below => same _ (Or.inr (Or.inr ⟨above, below⟩))
  have word : ∀ place count, place + count ≤ image.size →
      other.loadLE (int32Base + place) count = memory.loadLE (int32Base + place) count := by
    intro place count inside
    apply Memory.loadLE_congr
    intro index within
    rw [Nat.add_assoc]
    exact copy _ (by omega)
  have size : image.size = image.code.length + 68 := rfl
  have stack32Ptr : image.stack32Ptr = image.code.length := rfl
  have idt32Ptr : image.idt32Ptr = image.code.length + 4 := rfl
  have gdt32Ptr : image.gdt32Ptr = image.code.length + 10 := rfl
  have idt16Ptr : image.idt16Ptr = image.code.length + 16 := rfl
  constructor
  case code =>
    intro place within different
    rw [copy place (by omega)]
    exact underway.code place within different
  case number_byte => rw [copy _ (by omega), underway.number_byte]
  case stack32 => rw [word _ _ (by omega), underway.stack32]
  case idt32 =>
    rw [word _ _ (by omega), Nat.add_assoc, word _ _ (by omega), ← Nat.add_assoc]
    exact underway.idt32
  case gdt32 =>
    rw [word _ _ (by omega), Nat.add_assoc, word _ _ (by omega), ← Nat.add_assoc]
    exact underway.gdt32
  case idt16 =>
    refine underway.idt16.congr fun place within => ?_
    have length : ([0xff, 0x03] ++ doubleWord 0 : List UInt8).length = 6 := rfl
    rw [Nat.add_assoc]
    exact copy _ (by omega)
  case table =>
    refine underway.table.congr fun place within => ?_
    rw [show gdt16.length = 40 from rfl] at within
    exact same _ (Or.inr (Or.inl ⟨by omega, by omega⟩))
  case saved =>
    intro index within
    rw [← underway.saved index within]
    rw [show generalRegisters.length = 8 from rfl] at within
    exact Memory.loadLE_congr fun place inside => stack _ (by omega) (by omega)
  case return' =>
    rw [← underway.return']
    exact Memory.loadLE_congr fun place inside => stack _ (by omega) (by omega)
  case regs_arg =>
    rw [← underway.regs_arg]
    exact Memory.loadLE_congr fun place inside => stack _ (by omega) (by omega)

/-- The code is in place when its bytes are, but for the number of the interrupt. -/
theorem inPlace_of_bytes (code : ∀ place (within : place < image.code.length), place ≠ image.ib →
    memory (int32Base + place) = image.code[place]) : image.inPlace memory = true := by
  rw [Int32Image.inPlace, List.all_eq_true]
  intro place member
  have within := List.mem_range.mp member
  by_cases same : place = image.ib
  · rw [same, beq_self_eq_true, Bool.true_or]
  · rw [code place within same, List.getElem?_eq_getElem within, beq_self_eq_true, Bool.or_true]

/-- The code of the copy is in place. -/
theorem Underway.inPlace (underway : Underway image cpu number regs memory) :
    image.inPlace memory = true :=
  inPlace_of_bytes underway.code

/-- The table of descriptors, as `lgdt` finds it. -/
def lowTable (image : Int32Image) : TableRegister where
  limit := 39
  base := image.reloc + UInt32.ofNat image.gdt16Base

theorem toNat_lowTable : (lowTable image).base.toNat = image.reloc.toNat + image.gdt16Base := by
  have linked := image.linked
  exact toNat_offset (by
    have base : image.gdt16Base = image.code.length + 22 := rfl
    omega)

section Select

variable {address : Nat} {selector : UInt16}

/-- A descriptor of the table with base 0 and all bits of the limit set. -/
theorem decode_full {access granularity : UInt8}
    (holds : memory.Holds address [0xff, 0xff, 0x00, 0x00, 0x00, access, granularity, 0x00]) :
    Segment.decode memory address selector =
      { selector
        base := 0
        limit := if granularity &&& 0x80 = 0 then 0xffff + 0x10000 * (granularity &&& 0x0f).toNat
          else (0xffff + 0x10000 * (granularity &&& 0x0f).toNat) * 0x1000 + 0xfff
        width := if granularity &&& 0x40 = 0 then .word else .long } := by
  have zero : memory address = 0xff := holds.byte (by decide : 0 < 8)
  have one : memory (address + 1) = 0xff := holds.byte (by decide : 1 < 8)
  have two : memory (address + 2) = 0x00 := holds.byte (by decide : 2 < 8)
  have three : memory (address + 3) = 0x00 := holds.byte (by decide : 3 < 8)
  have four : memory (address + 4) = 0x00 := holds.byte (by decide : 4 < 8)
  have six : memory (address + 6) = granularity := holds.byte (by decide : 6 < 8)
  have seven : memory (address + 7) = 0x00 := holds.byte (by decide : 7 < 8)
  simp only [Segment.decode, Memory.loadLE_two, Memory.loadLE_three, Nat.add_assoc, Nat.reduceAdd, zero, one, two,
    three, four, six, seven, UInt8.reduceToNat, Nat.reduceMul]

/-- A selector of the table, and the descriptor it stands for. -/
theorem select_full (index : Nat) {register : SegmentRegister} {access granularity : UInt8}
    (table : memory.Holds (image.reloc.toNat + image.gdt16Base) gdt16)
    (place : (selector &&& 0xfff8).toNat = 8 * index) (global : selector &&& 4 = 0)
    (positive : 0 < index) (inside : index < 5)
    (entry : (gdt16.drop (8 * index)).take 8 =
      [0xff, 0xff, 0x00, 0x00, 0x00, access, granularity, 0x00])
    (allowed : Segment.loadable access register = true) :
    Segment.select memory (lowTable image) register selector = some
      { selector
        base := 0
        limit := if granularity &&& 0x80 = 0 then 0xffff + 0x10000 * (granularity &&& 0x0f).toNat
          else (0xffff + 0x10000 * (granularity &&& 0x0f).toNat) * 0x1000 + 0xfff
        width := if granularity &&& 0x40 = 0 then .word else .long } := by
  have length : gdt16.length = 40 := rfl
  have split : gdt16 = gdt16.take (8 * index) ++
      ([0xff, 0xff, 0x00, 0x00, 0x00, access, granularity, 0x00] ++
        (gdt16.drop (8 * index)).drop 8) := by
    rw [← entry, List.take_append_drop, List.take_append_drop]
  rw [split] at table
  have holds := (Memory.holds_append.mp (Memory.holds_append.mp table).2).1
  rw [List.length_take, length, Nat.min_eq_left (by omega)] at holds
  have rights : memory (image.reloc.toNat + image.gdt16Base + 8 * index + 5) = access :=
    holds.byte (by decide : 5 < 8)
  have limit : (lowTable image).limit.toNat = 39 := rfl
  simp only [Segment.select, toNat_lowTable, place, limit, rights, allowed, global]
  rw [if_pos ⟨by omega, trivial, by omega, trivial⟩, decode_full holds]

theorem select_code16 (table : memory.Holds (image.reloc.toNat + image.gdt16Base) gdt16) :
    Segment.select memory (lowTable image) .cs code16 = some (lowSegment code16) :=
  select_full 3 table rfl rfl (by decide) (by decide) rfl rfl

theorem select_data16 (table : memory.Holds (image.reloc.toNat + image.gdt16Base) gdt16)
    {register : SegmentRegister} (data : register ≠ .cs) :
    Segment.select memory (lowTable image) register data16 = some (lowSegment data16) :=
  select_full 4 table rfl rfl (by decide) (by decide) rfl
    (by cases register <;> first | rfl | exact absurd rfl data)

/-- The table has the flat segments of protected mode as well. -/
theorem select_flat (table : memory.Holds (image.reloc.toNat + image.gdt16Base) gdt16)
    (register : SegmentRegister) :
    Segment.select memory (lowTable image) register (if register = .cs then code32 else data32) =
      some (flatSegments register) := by
  by_cases code : register = .cs
  · subst code
    exact select_full 1 table rfl rfl (by decide) (by decide)
      rfl rfl
  · rw [flatSegments, if_neg code]
    exact select_full 2 table rfl rfl (by decide) (by decide)
      rfl (by cases register <;> first | rfl | exact absurd rfl code)

end Select

end Invariant

end Bootloader.Arch
