import Bootloader.Arch.Int32Call

/-!
# `int32` on its way down

What the blocks of `int32` leave that lead to real mode: the registers are saved, the code is
copied below 64 KB, the arguments are taken along, and protected mode is left.
-/

namespace Bootloader.Arch

open Bootloader.Std CodeBlock

section Down

variable {firmware : Firmware} {image : Int32Image} {cpu : Cpu} {number : UInt8} {regs : UInt32}

/-- What `int32Block` leaves: the registers on the stack, and the rest of the code below. -/
structure Relocated (image : Int32Image) (cpu after : Cpu) : Prop where
  ip : after.ip = UInt32.ofNat int32Base
  segment : after.segment = flatSegments
  cr0 : after.cr0 = cpu.cr0
  gdtr : after.gdtr = cpu.gdtr
  idtr : after.idtr = cpu.idtr
  ports : after.ports = cpu.ports
  up : after.flags &&& Flag.direction.mask = 0
  esp : after.register .esp = cpu.register .esp - 32
  memory : after.memory =
    (cpu.memory.pushWords (cpu.register .esp).toNat 4
      (generalRegisters.map cpu.register)).copyUp int32Base image.reloc.toNat image.size

theorem toNat_base : (UInt32.ofNat int32Base).toNat = int32Base := rfl

theorem toNat_size (image : Int32Image) : (UInt32.ofNat image.size).toNat = image.size := by
  have fits := image.fits
  have size : image.size = image.code.length + 68 := rfl
  rw [UInt32.toNat_ofNat', Nat.mod_eq_of_lt (by omega)]

theorem int32Block_leads (call : Int32Call image cpu number regs) :
    Leads firmware .long (int32Block image).instructions cpu (Relocated image cpu) := by
  obtain ⟨room, _⟩ := call.frame_room
  have segments := call.segments
  have linked := image.linked
  have size : image.size = image.code.length + 68 := rfl
  have fits := image.fits
  have wide := codeWidth_flat (congrFun segments .cs)
  have pointer := stackPointer_flat segments
  have stack : cpu.Room 32 := room_flat segments room
  have top := stackTop_flat segments
  have source : (cpu.segment .ds).linear image.reloc (UInt32.ofNat image.size).toNat =
      some image.reloc.toNat := by
    rw [segments, flatSegments, toNat_size, Segment.linear_flat (by omega)]
  have target : (cpu.segment .es).linear (UInt32.ofNat int32Base)
      (UInt32.ofNat image.size).toNat = some int32Base := by
    rw [segments, flatSegments, toNat_size, Segment.linear_flat (by rw [toNat_base]; omega)]
    rfl
  refine Leads.cons wide rfl ?_
  refine Leads.cons wide (Cpu.pushes_eq ⟨stack.above, stack.inside, stack.exists'⟩) ?_
  refine Leads.cons wide rfl ?_
  refine Leads.cons wide rfl ?_
  refine Leads.cons wide rfl ?_
  refine Leads.cons wide rfl ?_
  refine Leads.cons wide (Instruction.copyBytes_eq withFlag_clear source target) ?_
  refine Leads.cons wide rfl (Leads.nil ?_)
  constructor
  case ip => rfl
  case segment => exact segments
  case cr0 => rfl
  case gdtr => rfl
  case idtr => rfl
  case ports => rfl
  case up => exact withFlag_clear
  case esp =>
    change (cpu.segment .ss).width.merge (cpu.register .esp) (cpu.stackPointer - 32) = _
    rw [segments, pointer]
    rfl
  case memory =>
    change (cpu.memory.pushWords cpu.stackTop 4 (generalRegisters.map cpu.register)).copyUp int32Base
      image.reloc.toNat (UInt32.ofNat image.size).toNat = _
    rw [top, toNat_size]

/-- An address that `int32` does not write to on its way down. -/
def Elsewhere (image : Int32Image) (cpu : Cpu) (address : Nat) : Prop :=
  (address < windowLow ∨ int32Base + image.size ≤ address) ∧
    (address < (cpu.register .esp).toNat - 32 ∨ (cpu.register .esp).toNat ≤ address)

section Memory

variable {after : Cpu}

theorem Relocated.outside (relocated : Relocated image cpu after)
    (room : 32 ≤ (cpu.register .esp).toNat) {address : Nat}
    (below : address < int32Base ∨ int32Base + image.size ≤ address)
    (frame : address < (cpu.register .esp).toNat - 32 ∨ (cpu.register .esp).toNat ≤ address) :
    after.memory address = cpu.memory address := by
  have length : (generalRegisters.map cpu.register).length = 8 := rfl
  rw [relocated.memory, Memory.copyUp_outside below,
    Memory.pushWords_outside (by omega) (by omega)]

/-- The registers are on the stack. -/
theorem Relocated.saved (relocated : Relocated image cpu after)
    (call : Int32Call image cpu number regs) {index : Nat}
    (within : index < generalRegisters.length) :
    after.memory.loadLE ((cpu.register .esp).toNat - 4 * (index + 1)) 4 =
      (cpu.register generalRegisters[index]).toNat := by
  obtain ⟨room, _⟩ := call.frame_room
  have apart := call.window_frame
  have length : (generalRegisters.map cpu.register).length = 8 := rfl
  have short : index < 8 := within
  have low : windowLow < int32Base := by decide
  have bound := (cpu.register generalRegisters[index]).toNat_lt
  rw [Apart] at apart
  rw [relocated.memory, Memory.loadLE_copyUp_outside (by omega),
    Memory.loadLE_pushWords (by omega) (by omega), List.getElem_map, Nat.mod_eq_of_lt (by omega)]

/-- The copy holds the bytes of the original. -/
theorem Relocated.copied (relocated : Relocated image cpu after)
    (call : Int32Call image cpu number regs) : after.memory.Holds int32Base image.bytes := by
  obtain ⟨room, _⟩ := call.frame_room
  have length : (generalRegisters.map cpu.register).length = 8 := rfl
  have bytes : image.bytes.length = image.size := by
    simp only [Int32Image.bytes, List.length_append]
    rfl
  have low : windowLow < int32Base := by decide
  have frame := call.frame_image
  have window := call.window_image
  rw [Apart] at frame window
  refine call.loaded.copied fun place within => ?_
  rw [relocated.memory, Memory.copyUp_inside (by omega) (by omega),
    Memory.pushWords_outside (by omega) (by omega)]

/-- The parts of the copy. -/
theorem holds_bytes {memory : Memory} {address : Nat} (holds : memory.Holds address image.bytes) :
    memory.Holds address image.code ∧
    memory.Holds (address + image.idt16Ptr) ([0xff, 0x03] ++ doubleWord 0) ∧
    memory.Holds (address + image.gdt16Base) gdt16 ∧
    memory.Holds (address + image.gdt16Ptr)
      ([39, 0] ++ doubleWord (image.reloc + UInt32.ofNat image.gdt16Base)) := by
  obtain ⟨holds, pointer⟩ := Memory.holds_append.mp holds
  obtain ⟨holds, table⟩ := Memory.holds_append.mp holds
  obtain ⟨holds, idt16⟩ := Memory.holds_append.mp holds
  obtain ⟨holds, _⟩ := Memory.holds_append.mp holds
  obtain ⟨holds, _⟩ := Memory.holds_append.mp holds
  obtain ⟨code, _⟩ := Memory.holds_append.mp holds
  simp only [List.length_append] at pointer table idt16
  exact ⟨code, idt16, table, pointer⟩

/-- Memory after the stack pointer and the two table registers have been stored. -/
def pointersSaved (image : Int32Image) (cpu : Cpu) (memory : Memory) : Memory :=
  ((((memory.storeLE (int32Base + image.stack32Ptr) 4 (cpu.register .esp - 32).toNat).storeLE
    (int32Base + image.idt32Ptr) 2 cpu.idtr.limit.toNat).storeLE
    (int32Base + image.idt32Ptr + 2) 4 cpu.idtr.base.toNat).storeLE
    (int32Base + image.gdt32Ptr) 2 cpu.gdtr.limit.toNat).storeLE
    (int32Base + image.gdt32Ptr + 2) 4 cpu.gdtr.base.toNat

variable {memory : Memory}

theorem pointersSaved_outside {address : Nat}
    (outside : address < int32Base + image.stack32Ptr ∨ int32Base + image.idt16Ptr ≤ address) :
    pointersSaved image cpu memory address = memory address := by
  have stack32Ptr : image.stack32Ptr = image.code.length := rfl
  have idt32Ptr : image.idt32Ptr = image.code.length + 4 := rfl
  have gdt32Ptr : image.gdt32Ptr = image.code.length + 10 := rfl
  have idt16Ptr : image.idt16Ptr = image.code.length + 16 := rfl
  rw [pointersSaved, Memory.storeLE_outside (by omega), Memory.storeLE_outside (by omega),
    Memory.storeLE_outside (by omega), Memory.storeLE_outside (by omega),
    Memory.storeLE_outside (by omega)]

/-- The three pointers are read back. -/
theorem pointersSaved_loads :
    (pointersSaved image cpu memory).loadLE (int32Base + image.stack32Ptr) 4 =
        (cpu.register .esp - 32).toNat ∧
      ((pointersSaved image cpu memory).loadLE (int32Base + image.idt32Ptr) 2 =
          cpu.idtr.limit.toNat ∧
        (pointersSaved image cpu memory).loadLE (int32Base + image.idt32Ptr + 2) 4 =
          cpu.idtr.base.toNat) ∧
      (pointersSaved image cpu memory).loadLE (int32Base + image.gdt32Ptr) 2 =
          cpu.gdtr.limit.toNat ∧
        (pointersSaved image cpu memory).loadLE (int32Base + image.gdt32Ptr + 2) 4 =
          cpu.gdtr.base.toNat := by
  have stack32Ptr : image.stack32Ptr = image.code.length := rfl
  have idt32Ptr : image.idt32Ptr = image.code.length + 4 := rfl
  have gdt32Ptr : image.gdt32Ptr = image.code.length + 10 := rfl
  have stack := (cpu.register .esp - 32).toNat_lt
  have idtLimit := cpu.idtr.limit.toNat_lt
  have idtBase := cpu.idtr.base.toNat_lt
  have gdtLimit := cpu.gdtr.limit.toNat_lt
  have gdtBase := cpu.gdtr.base.toNat_lt
  rw [pointersSaved]
  refine ⟨?_, ⟨?_, ?_⟩, ?_, ?_⟩
  · rw [Memory.loadLE_storeLE_disjoint (by omega), Memory.loadLE_storeLE_disjoint (by omega),
      Memory.loadLE_storeLE_disjoint (by omega), Memory.loadLE_storeLE_disjoint (by omega),
      Memory.loadLE_storeLE, Nat.mod_eq_of_lt (by omega)]
  · rw [Memory.loadLE_storeLE_disjoint (by omega), Memory.loadLE_storeLE_disjoint (by omega),
      Memory.loadLE_storeLE_disjoint (by omega), Memory.loadLE_storeLE,
      Nat.mod_eq_of_lt (by omega)]
  · rw [Memory.loadLE_storeLE_disjoint (by omega), Memory.loadLE_storeLE_disjoint (by omega),
      Memory.loadLE_storeLE, Nat.mod_eq_of_lt (by omega)]
  · rw [Memory.loadLE_storeLE_disjoint (by omega), Memory.loadLE_storeLE,
      Nat.mod_eq_of_lt (by omega)]
  · rw [Memory.loadLE_storeLE, Nat.mod_eq_of_lt (by omega)]

/-- Memory once the arguments have been taken along too: the number is in the code, and the
registers are on the 16-bit stack. -/
def argumentsTaken (image : Int32Image) (cpu : Cpu) (number : UInt8) (regs : UInt32)
    (memory : Memory) : Memory :=
  ((pointersSaved image cpu memory).storeLE (int32Base + image.ib) 1 number.toNat).copyUp stack16
    regs.toNat regs16Size

/-- Behind the window and off the pointers and the number, the copies change nothing. -/
theorem argumentsTaken_outside {address : Nat}
    (outside : address < int32Base + image.stack32Ptr ∨ int32Base + image.idt16Ptr ≤ address)
    (number' : address ≠ int32Base + image.ib)
    (stack : address < stack16 ∨ int32Base ≤ address) :
    argumentsTaken image cpu number regs memory address = memory address := by
  have low : stack16 + regs16Size = int32Base := rfl
  rw [argumentsTaken, Memory.copyUp_outside (by omega), Memory.storeLE_outside (by omega),
    pointersSaved_outside outside]

/-- The 16-bit stack gets the registers of the caller. -/
theorem Relocated.block (relocated : Relocated image cpu after)
    (call : Int32Call image cpu number regs) {place : Nat} (within : place < regs16Size) :
    argumentsTaken image cpu number regs after.memory (stack16 + place) =
      cpu.memory (regs.toNat + place) := by
  obtain ⟨room, _⟩ := call.frame_room
  have window := call.window_regs
  have frame := call.frame_regs
  have low : stack16 + regs16Size = int32Base := rfl
  have lowest : windowLow < stack16 := by decide
  have size : image.size = image.code.length + 68 := rfl
  have stack32Ptr : image.stack32Ptr = image.code.length := rfl
  have idt16Ptr : image.idt16Ptr = image.code.length + 16 := rfl
  have ib := image.ib_lt
  rw [Apart] at window frame
  rw [argumentsTaken, Memory.copyUp_inside (by omega) within, Memory.storeLE_outside (by omega),
    pointersSaved_outside (by omega), relocated.outside room (by omega) (by omega)]

/-- Before the jump to the 16-bit segment memory is as it stays until the return. -/
theorem Relocated.underway (relocated : Relocated image cpu after)
    (call : Int32Call image cpu number regs) :
    Underway image cpu number regs (argumentsTaken image cpu number regs after.memory) := by
  obtain ⟨room, top⟩ := call.frame_room
  obtain ⟨code, idt16, _, _⟩ := holds_bytes (relocated.copied call)
  obtain ⟨_, _, table, _⟩ := holds_bytes call.loaded
  have frame := call.window_frame
  have window := call.window_image
  have apart := call.frame_image
  have low : stack16 + regs16Size = int32Base := rfl
  have lowest : windowLow < stack16 := by decide
  have size : image.size = image.code.length + 68 := rfl
  have stack32Ptr : image.stack32Ptr = image.code.length := rfl
  have idt32Ptr : image.idt32Ptr = image.code.length + 4 := rfl
  have gdt32Ptr : image.gdt32Ptr = image.code.length + 10 := rfl
  have idt16Ptr : image.idt16Ptr = image.code.length + 16 := rfl
  have gdt16Base : image.gdt16Base = image.code.length + 22 := rfl
  have ib := image.ib_lt
  rw [Apart] at frame window apart
  obtain ⟨stack, idt, gdt⟩ := @pointersSaved_loads image cpu after.memory
  have pointer : ∀ place count, image.code.length ≤ place →
      (argumentsTaken image cpu number regs after.memory).loadLE (int32Base + place) count =
        (pointersSaved image cpu after.memory).loadLE (int32Base + place) count := by
    intro place count above
    rw [argumentsTaken, Memory.loadLE_copyUp_outside (by omega),
      Memory.loadLE_storeLE_disjoint (by omega)]
  have stacked : ∀ address count, (cpu.register .esp).toNat - 32 ≤ address →
      address + count ≤ (cpu.register .esp).toNat + 12 →
      (argumentsTaken image cpu number regs after.memory).loadLE address count =
        after.memory.loadLE address count := by
    intro address count above below
    apply Memory.loadLE_congr
    intro index within
    exact argumentsTaken_outside (by omega) (by omega) (by omega)
  have argument : ∀ address, (cpu.register .esp).toNat ≤ address →
      address + 4 ≤ (cpu.register .esp).toNat + 12 →
      (argumentsTaken image cpu number regs after.memory).loadLE address 4 =
        cpu.memory.loadLE address 4 := by
    intro address above below
    rw [stacked _ _ (by omega) (by omega)]
    apply Memory.loadLE_congr
    intro index within
    exact relocated.outside room (by omega) (by omega)
  constructor
  case code =>
    intro place within different
    rw [argumentsTaken_outside (by omega) (by omega) (by omega)]
    exact code.byte within
  case number_byte =>
    have byte : ((pointersSaved image cpu after.memory).storeLE (int32Base + image.ib) 1
        number.toNat) (int32Base + image.ib) = number := by
      rw [Memory.storeLE, Memory.storeLE, Memory.store8_same, UInt8.ofNat_toNat]
    rw [argumentsTaken, Memory.copyUp_outside (by omega), byte]
  case stack32 =>
    rw [pointer _ _ (by omega), stack]
    exact Cpu.toNat_sub_ofNat room
  case idt32 =>
    rw [pointer _ _ (by omega), Nat.add_assoc, pointer _ _ (by omega), ← Nat.add_assoc]
    exact idt
  case gdt32 =>
    rw [pointer _ _ (by omega), Nat.add_assoc, pointer _ _ (by omega), ← Nat.add_assoc]
    exact gdt
  case idt16 =>
    refine idt16.congr fun place within => ?_
    have length : ([0xff, 0x03] ++ doubleWord 0 : List UInt8).length = 6 := rfl
    exact argumentsTaken_outside (by omega) (by omega) (by omega)
  case table =>
    refine table.congr fun place within => ?_
    have length : gdt16.length = 40 := rfl
    rw [argumentsTaken_outside (by omega) (by omega) (by omega),
      relocated.outside room (by omega) (by omega)]
  case saved =>
    intro index within
    have short : index < 8 := within
    rw [stacked _ _ (by omega) (by omega), relocated.saved call within]
  case return' => rw [argument _ (by omega) (by omega)]
  case regs_arg => rw [argument _ (by omega) (by omega), call.regs_arg]

end Memory

section Reloc

variable {after : Cpu} {rest : List Instruction} {Post : Cpu → Prop}

theorem toNat_rebase {place : Nat} (within : place < image.size) :
    (Int32Image.rebase place).toNat = int32Base + place := by
  have fits := image.fits
  have size : image.size = image.code.length + 68 := rfl
  rw [Int32Image.rebase, UInt32.toNat_ofNat', Nat.mod_eq_of_lt (by omega)]

/-- The places of the copy have offsets of 16 bits. -/
theorem take_rebase {width : Width} {place : Nat} (within : place < image.size) :
    width.take (Int32Image.rebase place) = Int32Image.rebase place := by
  have fits := image.fits
  have size : image.size = image.code.length + 68 := rfl
  have mask : 0xffff ≤ width.mask.toNat := by cases width <;> decide
  apply Cpu.take_of_le_mask
  rw [toNat_rebase within]
  omega

theorem take_label (width : Width) {label : Nat} (inside : label < image.code.length) :
    width.take (Int32Image.rebase label) = Int32Image.rebase label :=
  @take_rebase image width label (Nat.lt_of_lt_of_le inside (Nat.le_add_right _ 68))

/-- An operand in the copy is found in a segment that begins at 0. -/
theorem linear_rebase (width : Width) {segment : Segment} {place count : Nat}
    (zero : segment.base = 0) (long : 0xffff ≤ segment.limit)
    (within : place + count ≤ image.size) (positive : 0 < count) :
    segment.linear (width.take (0 + Int32Image.rebase place)) count = some (int32Base + place) := by
  have fits := image.fits
  have size : image.size = image.code.length + 68 := rfl
  have number := @toNat_rebase image place (by omega)
  rw [UInt32.zero_add, @take_rebase image width place (by omega),
    Segment.linear_of_le (by omega) (by omega), zero, Nat.zero_add, number]

theorem Relocated.wide (relocated : Relocated image cpu after) : after.codeWidth = .long :=
  codeWidth_flat (congrFun relocated.segment .cs)

/-- Segments are still flat. -/
theorem Relocated.linear (relocated : Relocated image cpu after) {register : SegmentRegister}
    {offset : UInt32} {count : Nat} (inside : offset.toNat + count ≤ 2 ^ 32) :
    (after.segment register).linear offset count = some offset.toNat := by
  rw [relocated.segment]
  exact Segment.linear_flat inside

/-- The variables of the copy are found. -/
theorem Relocated.variable_linear (relocated : Relocated image cpu after) {place count : Nat}
    (within : place + count ≤ image.size) (positive : 0 < count) :
    (after.segment .ds).linear (0 + Int32Image.rebase place) count = some (int32Base + place) := by
  rw [relocated.segment]
  exact linear_rebase .long rfl (by decide) within positive

/-- The first three instructions behind `reloc`. -/
theorem pointersSaved_leads (relocated : Relocated image cpu after)
    (more : Leads firmware .long rest
      (after.setMemory (pointersSaved image cpu after.memory)) Post) :
    Leads firmware .long
      (.store .long (Int32Image.variable' .long image.stack32Ptr) .esp ::
        .sidt (Int32Image.variable' .long image.idt32Ptr) ::
        .sgdt (Int32Image.variable' .long image.gdt32Ptr) :: rest) after Post := by
  have size : image.size = image.code.length + 68 := rfl
  have stack32Ptr : image.stack32Ptr = image.code.length := rfl
  have idt32Ptr : image.idt32Ptr = image.code.length + 4 := rfl
  have gdt32Ptr : image.gdt32Ptr = image.code.length + 10 := rfl
  have wide := relocated.wide
  have stack : (after.segment .ds).linear (0 + Int32Image.rebase image.stack32Ptr) 4 = some _ :=
    relocated.variable_linear (by omega) (by decide)
  have idt : (after.segment .ds).linear (0 + Int32Image.rebase image.idt32Ptr) 6 = some _ :=
    relocated.variable_linear (by omega) (by decide)
  have gdt : (after.segment .ds).linear (0 + Int32Image.rebase image.gdt32Ptr) 6 = some _ :=
    relocated.variable_linear (by omega) (by decide)
  rw [pointersSaved, ← relocated.esp, ← relocated.idtr, ← relocated.gdtr] at more
  refine Leads.cons wide (Instruction.execute_store stack) ?_
  refine Leads.cons wide (Instruction.storeTable_eq idt) ?_
  exact Leads.cons wide (Instruction.storeTable_eq gdt) more

/-- What `relocBlock` leaves. -/
structure Prepared (image : Int32Image) (cpu : Cpu) (number : UInt8) (regs : UInt32)
    (after : Cpu) : Prop where
  ip : after.ip = Int32Image.rebase image.pMode16
  code : after.segment .cs = lowSegment code16
  cr0 : after.cr0 = cpu.cr0
  gdtr : after.gdtr = lowTable image
  ports : after.ports = cpu.ports
  esp : after.register .esp = UInt32.ofNat stack16
  underway : Underway image cpu number regs after.memory
  block : ∀ place < regs16Size, after.memory (stack16 + place) = cpu.memory (regs.toNat + place)
  outside : ∀ address, Elsewhere image cpu address → after.memory address = cpu.memory address

/-- The lowest byte of a double word. -/
theorem toUInt8_loadLE {memory : Memory} {address : Nat} :
    (UInt32.ofNat (memory.loadLE address 4)).toUInt16.toUInt8 = memory address := by
  have bound := (memory address).toNat_lt
  rw [← UInt8.toNat_inj, UInt16.toNat_toUInt8, UInt32.toNat_toUInt16, UInt32.toNat_ofNat',
    Memory.loadLE]
  omega

/-- Saving the pointers leaves the arguments on the stack. -/
theorem Relocated.stacked (relocated : Relocated image cpu after)
    (call : Int32Call image cpu number regs) {address : Nat}
    (above : (cpu.register .esp).toNat ≤ address)
    (below : address < (cpu.register .esp).toNat + 12) :
    pointersSaved image cpu after.memory address = cpu.memory address := by
  obtain ⟨room, _⟩ := call.frame_room
  have frame := call.window_frame
  have lowest : windowLow < int32Base := by decide
  have size : image.size = image.code.length + 68 := rfl
  have stack32Ptr : image.stack32Ptr = image.code.length := rfl
  have idt16Ptr : image.idt16Ptr = image.code.length + 16 := rfl
  rw [Apart] at frame
  rw [pointersSaved_outside (by omega), relocated.outside room (by omega) (by omega)]

/-- The number of the interrupt is found on the stack. -/
theorem Relocated.number_loaded (relocated : Relocated image cpu after)
    (call : Int32Call image cpu number regs) :
    (UInt32.ofNat ((pointersSaved image cpu after.memory).loadLE
      ((cpu.register .esp).toNat + 4) 4)).toUInt16.toUInt8 = number := by
  rw [toUInt8_loadLE, relocated.stacked call (by omega) (by omega), call.number_arg]

/-- So is the pointer to the registers, once the number has been stored. -/
theorem Relocated.regs_loaded (relocated : Relocated image cpu after)
    (call : Int32Call image cpu number regs) (byte : Nat) :
    UInt32.ofNat (((pointersSaved image cpu after.memory).storeLE (int32Base + image.ib) 1
      byte).loadLE ((cpu.register .esp).toNat + 8) 4) = regs := by
  have frame := call.window_frame
  have lowest : windowLow < int32Base := by decide
  have size : image.size = image.code.length + 68 := rfl
  have ib := image.ib_lt
  rw [Apart] at frame
  rw [Memory.loadLE_storeLE_disjoint (by omega),
    Memory.loadLE_congr fun index within => relocated.stacked call (by omega) (by omega),
    call.regs_arg, UInt32.ofNat_toNat]

/-- Where the two arguments are, seen from the stack pointer behind the saved registers. -/
theorem Relocated.argument_places (relocated : Relocated image cpu after)
    (call : Int32Call image cpu number regs) :
    (after.register .esp + 0x24).toNat = (cpu.register .esp).toNat + 4 ∧
      (after.register .esp + 0x24 + 4 + 0).toNat = (cpu.register .esp).toNat + 8 := by
  obtain ⟨room, top⟩ := call.frame_room
  have lowered : (cpu.register .esp - 32).toNat = (cpu.register .esp).toNat - 32 :=
    Cpu.toNat_sub_ofNat room
  have behind : (0x24 : UInt32).toNat = 36 := rfl
  have next : (4 : UInt32).toNat = 4 := rfl
  have first : (after.register .esp + 0x24).toNat = (cpu.register .esp).toNat + 4 := by
    rw [relocated.esp, toNat_add_of_lt (by omega), lowered, behind]
    omega
  refine ⟨first, ?_⟩
  rw [UInt32.add_zero, toNat_add_of_lt (by omega), first, next]

/-- The table of the 16-bit segments is found in the copy. -/
theorem Relocated.tableRegister (relocated : Relocated image cpu after)
    (call : Int32Call image cpu number regs) :
    Instruction.tableRegister .long (Int32Image.variable' .long image.gdt16Ptr)
      (after.setMemory (pointersSaved image cpu after.memory)) = some (lowTable image) := by
  obtain ⟨_, _, _, pointer⟩ := holds_bytes (relocated.copied call)
  obtain ⟨limit, base⟩ := Memory.holds_append.mp pointer
  have size : image.size = image.code.length + 68 := rfl
  have idt16Ptr : image.idt16Ptr = image.code.length + 16 := rfl
  have gdt16Ptr : image.gdt16Ptr = image.code.length + 62 := rfl
  have kept : ∀ address, int32Base + image.gdt16Ptr ≤ address →
      pointersSaved image cpu after.memory address = after.memory address :=
    fun address above => pointersSaved_outside (by omega)
  have two : (pointersSaved image cpu after.memory).loadLE (int32Base + image.gdt16Ptr) 2 = 39 :=
    @Memory.loadLE_word _ _ 39 ((kept _ (by omega)).trans (limit.byte (by decide : 0 < 2)))
      ((kept _ (by omega)).trans (limit.byte (by decide : 1 < 2)))
  have four : (pointersSaved image cpu after.memory).loadLE (int32Base + image.gdt16Ptr + 2) 4 =
      (image.reloc + UInt32.ofNat image.gdt16Base).toNat :=
    (Memory.loadLE_congr fun index within => kept _ (by omega)).trans base.doubleWord
  have place : (after.setMemory (pointersSaved image cpu after.memory)).address
      (Int32Image.variable' .long image.gdt16Ptr) 6 = some (int32Base + image.gdt16Ptr) :=
    relocated.variable_linear (by omega) (by decide)
  refine (Instruction.tableRegister_eq place).trans ?_
  change some (TableRegister.mk (UInt16.ofNat ((pointersSaved image cpu after.memory).loadLE _ 2))
    (UInt32.ofNat ((pointersSaved image cpu after.memory).loadLE _ 4))) = _
  rw [two, four, UInt32.ofNat_toNat]
  rfl

theorem relocBlock_leads (call : Int32Call image cpu number regs)
    (relocated : Relocated image cpu after) :
    Leads firmware .long (relocBlock image).instructions after
      (Prepared image cpu number regs) := by
  obtain ⟨room, top⟩ := call.frame_room
  have regs_room := call.regs_room
  have low : stack16 + regs16Size = int32Base := rfl
  have lowest : windowLow < stack16 := by decide
  have size : image.size = image.code.length + 68 := rfl
  have stack32Ptr : image.stack32Ptr = image.code.length := rfl
  have idt16Ptr : image.idt16Ptr = image.code.length + 16 := rfl
  have ib := image.ib_lt
  have wide := relocated.wide
  have loaded := relocated.number_loaded call
  have argument := relocated.regs_loaded call
  have table := relocated.tableRegister call
  have underway := relocated.underway call
  obtain ⟨number_place, regs_place⟩ := relocated.argument_places call
  have word : (after.segment .ds).linear (after.register .esp + 0x24) 4 =
      some ((cpu.register .esp).toNat + 4) := by
    rw [relocated.linear (by omega), number_place]
  have pointer : (after.segment .ds).linear (after.register .esp + 0x24 + 4 + 0) 4 =
      some ((cpu.register .esp).toNat + 8) := by
    rw [relocated.linear (by omega), regs_place]
  have byte : (after.segment .ds).linear (0 + Int32Image.rebase image.ib) 1 =
      some (int32Base + image.ib) := relocated.variable_linear (by omega) (by decide)
  have target : (after.segment .es).linear (UInt32.ofNat stack16) regs16Size = some stack16 :=
    relocated.linear (by decide)
  have mode : after.protectedMode = true := by
    rw [Cpu.protectedMode, relocated.cr0, call.mode]
    rfl
  obtain ⟨memory, saved⟩ : ∃ memory, pointersSaved image cpu after.memory = memory := ⟨_, rfl⟩
  rw [saved] at loaded argument table
  have source : ∀ byte, (after.segment .ds).linear
      (UInt32.ofNat ((memory.storeLE (int32Base + image.ib) 1 byte).loadLE
        ((cpu.register .esp).toNat + 8) 4)) regs16Size = some regs.toNat := by
    intro byte
    rw [argument, relocated.linear (by omega)]
  have taken : (memory.storeLE (int32Base + image.ib) 1
      (UInt32.ofNat (memory.loadLE ((cpu.register .esp).toNat + 4) 4)).toUInt16.toUInt8.toNat).copyUp
        stack16 regs.toNat regs16Size = argumentsTaken image cpu number regs after.memory := by
    rw [loaded, argumentsTaken, saved]
  have code : Segment.select ((memory.storeLE (int32Base + image.ib) 1
      (UInt32.ofNat (memory.loadLE ((cpu.register .esp).toNat + 4) 4)).toUInt16.toUInt8.toNat).copyUp
        stack16 regs.toNat regs16Size) (lowTable image) .cs code16 = some (lowSegment code16) := by
    rw [taken]
    exact select_code16 underway.table
  refine pointersSaved_leads relocated ?_
  rw [saved]
  refine Leads.cons wide (Instruction.execute_lgdt table) ?_
  refine Leads.cons wide rfl ?_
  refine Leads.cons wide (Instruction.loadString_eq relocated.up word) ?_
  refine Leads.cons wide (Instruction.execute_storeByte byte) ?_
  refine Leads.cons wide (Instruction.execute_load pointer) ?_
  refine Leads.cons wide rfl ?_
  refine Leads.cons wide rfl ?_
  refine Leads.cons wide rfl ?_
  refine Leads.cons wide (Instruction.copyBytes_eq relocated.up (source _) target) ?_
  refine Leads.cons wide
    (Instruction.execute_jumpFar (Cpu.setSegment_protected mode code)) (Leads.nil ?_)
  constructor
  case ip => exact take_label .word image.labels_lt.1
  case code => rfl
  case cr0 => exact relocated.cr0
  case gdtr => rfl
  case ports => exact relocated.ports
  case esp => rfl
  case underway =>
    rw [← taken] at underway
    exact underway
  case block =>
    intro place within
    have same := relocated.block call within
    rw [← taken] at same
    exact same
  case outside =>
    intro address elsewhere
    obtain ⟨window, stack⟩ := elsewhere
    have same := @argumentsTaken_outside image cpu number regs after.memory address (by omega)
      (by omega) (by omega)
    rw [← taken] at same
    exact same.trans (relocated.outside room (by omega) stack)

/-- What `pMode16Block` leaves: real mode, with all segments that begin at 0. -/
structure Lowered (image : Int32Image) (before after : Cpu) : Prop where
  ip : after.ip = Int32Image.rebase image.rMode16
  code : after.segment .cs = lowSegment 0
  data : ∀ register, register ≠ .cs → after.segment register = lowSegment data16
  cr0 : after.cr0 = before.cr0 &&& ~~~1
  gdtr : after.gdtr = before.gdtr
  ports : after.ports = before.ports
  esp : after.register .esp = before.register .esp
  memory : after.memory = before.memory

theorem pMode16Block_leads {before : Cpu} (call : Int32Call image cpu number regs)
    (prepared : Prepared image cpu number regs before) :
    Leads firmware .word (pMode16Block image).instructions before (Lowered image before) := by
  have narrow := codeWidth_low prepared.code
  have mode : before.protectedMode = true := by
    rw [Cpu.protectedMode, prepared.cr0, call.mode]
    rfl
  have found : ∀ register, register ≠ .cs →
      Segment.select before.memory before.gdtr register
        (Width.word.merge (before.register .eax) data16.toUInt32).toUInt16 =
          some (lowSegment data16) := by
    intro register data
    rw [toUInt16_merge_word, prepared.gdtr]
    exact select_data16 prepared.underway.table data
  have real : ByteRegister.al.merge before.cr0 (ByteRegister.al.part before.cr0 &&& ~~~0x01) =
      before.cr0 &&& ~~~1 := merge_part_and
  have left : (ByteRegister.al.merge before.cr0
      (ByteRegister.al.part before.cr0 &&& ~~~0x01) &&& 1 != 0) = false := by
    rw [real, UInt32.and_assoc, UInt32.not_and_self, UInt32.and_zero]
    rfl
  refine Leads.cons narrow rfl ?_
  refine Leads.cons narrow (Cpu.setSegment_protected mode (found .ds (by decide))) ?_
  refine Leads.cons narrow (Cpu.setSegment_protected mode (found .es (by decide))) ?_
  refine Leads.cons narrow (Cpu.setSegment_protected mode (found .fs (by decide))) ?_
  refine Leads.cons narrow (Cpu.setSegment_protected mode (found .gs (by decide))) ?_
  refine Leads.cons narrow (Cpu.setSegment_protected mode (found .ss (by decide))) ?_
  refine Leads.cons narrow rfl ?_
  refine Leads.cons narrow rfl ?_
  refine Leads.cons narrow rfl ?_
  refine Leads.cons narrow (Instruction.execute_jumpFar (Cpu.setSegment_real left))
    (Leads.nil ?_)
  constructor
  case ip => exact take_label .word image.labels_lt.2.1
  case code =>
    change (before.segment .cs).real 0 = _
    rw [prepared.code]
    rfl
  case data =>
    intro register data
    cases register with
    | cs => exact absurd rfl data
    | es => rfl
    | ss => rfl
    | ds => rfl
    | fs => rfl
    | gs => rfl
  case cr0 => exact real
  case gdtr => rfl
  case ports => rfl
  case esp => rfl
  case memory => rfl

end Reloc

end Down

end Bootloader.Arch
