import Bootloader.Arch.Int32Interrupt

/-!
# `int32` on its way up

The vectors of protected mode are set again, protected mode is entered with the segments of
the table below, and what was saved is restored.
-/

namespace Bootloader.Arch

open Bootloader.Std CodeBlock

variable {firmware : Firmware} {image : Int32Image} {cpu returned before : Cpu} {number : UInt8}
  {regs : UInt32}

/-- The registers that `int32` hands over: those the BIOS has left, but for the stack pointer
and the flags. -/
def handedOver (returned : Cpu) : Regs16T :=
  { Regs16T.ofCpu returned with
    sp := UInt16.ofNat (stack16 + 16)
    ef := (storedFlags returned.flags).toUInt16 }

/-- What the second `resetpic` returns to. -/
structure VectorsRestored (image : Int32Image) (cpu : Cpu) (number : UInt8) (regs : UInt32)
    (returned now : Cpu) : Prop extends RealMode image cpu number regs now where
  ip : now.ip = Int32Image.rebase image.vectorsRestored
  ports : now.ports = returned.ports ++ resetpicWrites 0x20 0x28
  block : Regs16T.load now.memory stack16 = handedOver returned
  outside : ∀ address, address < windowLow ∨ int32Base ≤ address →
    now.memory address = returned.memory address

theorem VectorsRestored.of_reset {called after : Cpu} (call : Int32Call image cpu number regs)
    (mode : RealMode image cpu number regs returned) (stored : Stored image returned called)
    (reset : Reset called (Int32Image.rebase image.vectorsRestored) after) :
    VectorsRestored image cpu number regs returned after := by
  have pointer : called.stackPointer.toNat = stack16 - 2 := by
    rw [stored.stackPointer]
    rfl
  have window : windowLow = stack16 - 6 := rfl
  have low : stack16 = 31718 := rfl
  have top : int32Base = 31744 := rfl
  have memory : ∀ address, address < windowLow ∨ stack16 ≤ address →
      after.memory address = called.memory address :=
    fun address away => reset.memory address (by omega)
  have outside : ∀ address, address < windowLow ∨ int32Base ≤ address →
      after.memory address = returned.memory address := by
    intro address away
    rw [memory address (by omega), stored.outside address away]
  constructor
  case toRealMode =>
    constructor
    case code => rw [reset.segment, stored.code]
    case stack => rw [reset.segment, stored.stack]
    case cr0 => rw [reset.cr0, stored.cr0, mode.cr0]
    case gdtr => rw [reset.gdtr, stored.gdtr, mode.gdtr]
    case underway => exact mode.underway.stack call outside
  case ip => exact reset.ip
  case ports => rw [reset.ports, stored.ports, stored.vectors.1, stored.vectors.2]
  case block =>
    rw [handedOver, ← stored.block]
    exact Regs16T.load_congr fun place _ => memory _ (by omega)
  case outside => exact outside

/-- What `returnBlock` leaves: protected mode. -/
structure Raised (image : Int32Image) (cpu before after : Cpu) : Prop where
  ip : after.ip = Int32Image.rebase image.pMode32
  code : after.segment .cs = flatSegments .cs
  cr0 : after.cr0 = cpu.cr0
  gdtr : after.gdtr = lowTable image
  ports : after.ports = before.ports
  memory : after.memory = before.memory

theorem returnBlock_leads (call : Int32Call image cpu number regs)
    (mode : RealMode image cpu number regs before) :
    Leads firmware .word (returnBlock image).instructions before (Raised image cpu before) := by
  have narrow := codeWidth_low mode.code
  have control : before.cr0 + 1 = cpu.cr0 := by
    rw [mode.cr0, and_not_one_add_one call.mode]
  have raised : (before.cr0 + 1 &&& 1 != 0) = true := by
    rw [control, call.mode]
    rfl
  have found : Segment.select before.memory before.gdtr .cs code32 = some (flatSegments .cs) := by
    rw [mode.gdtr]
    exact select_flat mode.underway.table .cs
  refine Leads.cons narrow rfl ?_
  refine Leads.cons narrow rfl ?_
  refine Leads.cons narrow rfl ?_
  refine Leads.cons narrow (Instruction.execute_jumpFar (Cpu.setSegment_protected raised found))
    (Leads.nil ?_)
  constructor
  case ip => rfl
  case code => rfl
  case cr0 => exact control
  case gdtr => exact mode.gdtr
  case ports => rfl
  case memory => rfl

/-- What `int32` leaves, for the registers and the memory that the BIOS left in `returned`. -/
structure Int32Done (cpu : Cpu) (regs : UInt32) (returned after : Cpu) : Prop where
  ip : after.ip = cpu.memory.load32 (cpu.register .esp).toNat
  esp : after.register .esp = cpu.register .esp + 4
  register : ∀ register, register ≠ .esp → after.register register = cpu.register register
  segment : after.segment = cpu.segment
  cr0 : after.cr0 = cpu.cr0
  gdtr : after.gdtr = cpu.gdtr
  idtr : after.idtr = cpu.idtr
  interrupts : after.flags &&& Flag.interrupt.mask = Flag.interrupt.mask
  direction : after.flags &&& Flag.direction.mask = 0
  ports : after.ports = returned.ports ++ resetpicWrites 0x20 0x28
  block : Regs16T.load after.memory regs.toNat = handedOver returned
  outside : ∀ address, address < windowLow ∨ int32Base ≤ address →
    address < regs.toNat ∨ regs.toNat + regs16Size ≤ address →
    after.memory address = returned.memory address

/-- What the instructions of `pMode32Block` before the last three leave: the registers of the
BIOS are handed over, and those of the caller are on top of the stack. -/
structure BlockHandedOver (cpu : Cpu) (regs : UInt32) (before now : Cpu) : Prop where
  segment : now.segment = flatSegments
  cr0 : now.cr0 = cpu.cr0
  gdtr : now.gdtr = cpu.gdtr
  idtr : now.idtr = cpu.idtr
  esp : now.register .esp = cpu.register .esp - 32
  direction : now.flags &&& Flag.direction.mask = 0
  ports : now.ports = before.ports
  memory : now.memory = before.memory.copyUp regs.toNat stack16 regs16Size

theorem pMode32Block_hands_over {rising : Cpu} (call : Int32Call image cpu number regs)
    (underway : Underway image cpu number regs before.memory)
    (raised : Raised image cpu rising before) :
    Leads firmware .long ((pMode32Block image).instructions.take 15) before
      (BlockHandedOver cpu regs before) := by
  obtain ⟨room, top⟩ := call.frame_room
  have regs_room := call.regs_room
  have size : image.size = image.code.length + 68 := rfl
  have stack32Ptr : image.stack32Ptr = image.code.length := rfl
  have idt32Ptr : image.idt32Ptr = image.code.length + 4 := rfl
  have gdt32Ptr : image.gdt32Ptr = image.code.length + 10 := rfl
  have wide := codeWidth_flat raised.code
  have mode : before.protectedMode = true := by
    rw [Cpu.protectedMode, raised.cr0, call.mode]
    rfl
  have found : ∀ register, register ≠ .cs →
      Segment.select before.memory before.gdtr register
        (Width.word.merge (before.register .eax) data32.toUInt32).toUInt16 =
          some (flatSegments register) := by
    intro register data
    have flat := select_flat underway.table register
    rw [if_neg data] at flat
    rw [toUInt16_merge_word, raised.gdtr]
    exact flat
  have at' : ∀ place count, place + count ≤ image.size → 0 < count →
      (flatSegments .ds).linear (0 + Int32Image.rebase place) count = some (int32Base + place) :=
    fun place count within positive => linear_rebase .long rfl (by decide) within positive
  have lowered : (cpu.register .esp - 32).toNat = (cpu.register .esp).toNat - 32 :=
    Cpu.toNat_sub_ofNat room
  have esp : UInt32.ofNat (before.memory.loadLE (int32Base + image.stack32Ptr) 4) =
      cpu.register .esp - 32 := by
    rw [underway.stack32, ← lowered, UInt32.ofNat_toNat]
  have argument : (flatSegments .ds).linear (UInt32.ofNat
      (before.memory.loadLE (int32Base + image.stack32Ptr) 4) + 0x28 + 0) 4 =
        some ((cpu.register .esp).toNat + 8) := by
    have number : (0x28 : UInt32).toNat = 40 := rfl
    have place : (cpu.register .esp - 32 + 0x28).toNat = (cpu.register .esp).toNat + 8 := by
      rw [toNat_add_of_lt (by rw [lowered, number]; omega), lowered, number]
      omega
    rw [esp, UInt32.add_zero, flatSegments, Segment.linear_flat (by omega), place]
  have target : (flatSegments .es).linear (UInt32.ofNat
      (before.memory.loadLE ((cpu.register .esp).toNat + 8) 4)) regs16Size = some regs.toNat := by
    rw [underway.regs_arg, UInt32.ofNat_toNat, flatSegments, Segment.linear_flat regs_room]
  have source : (flatSegments .ds).linear (UInt32.ofNat stack16) regs16Size = some stack16 :=
    Segment.linear_flat (by decide)
  refine Leads.cons wide rfl ?_
  refine Leads.cons wide (Cpu.setSegment_protected mode (found .ds (by decide))) ?_
  refine Leads.cons wide (Cpu.setSegment_protected mode (found .es (by decide))) ?_
  refine Leads.cons wide (Cpu.setSegment_protected mode (found .fs (by decide))) ?_
  refine Leads.cons wide (Cpu.setSegment_protected mode (found .gs (by decide))) ?_
  refine Leads.cons wide (Cpu.setSegment_protected mode (found .ss (by decide))) ?_
  refine Leads.cons wide (Instruction.execute_lgdt
    (Instruction.tableRegister_eq (at' image.gdt32Ptr 6 (by omega) (by decide)))) ?_
  refine Leads.cons wide (Instruction.execute_lidt
    (Instruction.tableRegister_eq (at' image.idt32Ptr 6 (by omega) (by decide)))) ?_
  refine Leads.cons wide (Instruction.execute_load
    (at' image.stack32Ptr 4 (by omega) (by decide))) ?_
  refine Leads.cons wide rfl ?_
  refine Leads.cons wide rfl ?_
  refine Leads.cons wide (Instruction.execute_load argument) ?_
  refine Leads.cons wide rfl ?_
  refine Leads.cons wide rfl ?_
  refine Leads.cons wide (Instruction.copyBytes_eq withFlag_clear source target) (Leads.nil ?_)
  constructor
  case segment =>
    funext register
    cases register with
    | cs => exact raised.code
    | es => rfl
    | ss => rfl
    | ds => rfl
    | fs => rfl
    | gs => rfl
  case cr0 => exact raised.cr0
  case gdtr =>
    change TableRegister.mk (UInt16.ofNat (before.memory.loadLE _ 2))
      (UInt32.ofNat (before.memory.loadLE _ 4)) = _
    rw [underway.gdt32.1, underway.gdt32.2, UInt16.ofNat_toNat, UInt32.ofNat_toNat]
  case idtr =>
    change TableRegister.mk (UInt16.ofNat (before.memory.loadLE _ 2))
      (UInt32.ofNat (before.memory.loadLE _ 4)) = _
    rw [underway.idt32.1, underway.idt32.2, UInt16.ofNat_toNat, UInt32.ofNat_toNat]
  case esp => exact esp
  case direction => exact withFlag_clear
  case ports => rfl
  case memory => rfl

section Back

variable {now : Cpu}

/-- The frame of the call has not been written to since the registers were saved in it. -/
theorem BlockHandedOver.frame (call : Int32Call image cpu number regs)
    (handed : BlockHandedOver cpu regs before now) {address : Nat}
    (above : (cpu.register .esp).toNat - 32 ≤ address)
    (below : address + 4 ≤ (cpu.register .esp).toNat + 12) :
    now.memory.loadLE address 4 = before.memory.loadLE address 4 := by
  have apart := call.frame_regs
  rw [Apart] at apart
  rw [handed.memory, Memory.loadLE_copyUp_outside (by omega)]

theorem BlockHandedOver.toNat_esp (call : Int32Call image cpu number regs)
    (handed : BlockHandedOver cpu regs before now) :
    (now.register .esp).toNat = (cpu.register .esp).toNat - 32 := by
  rw [handed.esp]
  exact Cpu.toNat_sub_ofNat call.frame_room.1

/-- Where `popa` finds a register of the caller. -/
theorem BlockHandedOver.saved (call : Int32Call image cpu number regs)
    (underway : Underway image cpu number regs before.memory)
    (handed : BlockHandedOver cpu regs before now) (index offset : Nat) {register : Register}
    (here : generalRegisters[index]? = some register) (sum : offset + 4 * (index + 1) = 32) :
    UInt32.ofNat (now.memory.loadLE (now.stackTop + offset) 4) = cpu.register register := by
  have room := call.frame_room.1
  obtain ⟨within, same⟩ := List.getElem?_eq_some_iff.mp here
  have place : now.stackTop + offset = (cpu.register .esp).toNat - 4 * (index + 1) := by
    rw [stackTop_flat handed.segment, handed.toNat_esp call]
    omega
  rw [place, handed.frame call (by omega) (by omega), underway.saved index within, same,
    UInt32.ofNat_toNat]

/-- The registers of the caller are back, and the return address is on top of the stack. -/
structure RegistersBack (cpu now back : Cpu) : Prop where
  register : ∀ register, back.register register = cpu.register register
  segment : back.segment = flatSegments
  cr0 : back.cr0 = cpu.cr0
  gdtr : back.gdtr = cpu.gdtr
  idtr : back.idtr = cpu.idtr
  flags : back.flags = now.flags
  ports : back.ports = now.ports
  memory : back.memory = now.memory

theorem registers_popped (call : Int32Call image cpu number regs)
    (underway : Underway image cpu number regs before.memory)
    (handed : BlockHandedOver cpu regs before now) :
    RegistersBack cpu now (now.popped .long generalRegisters.reverse) := by
  constructor
  case register =>
    intro register
    cases register with
    | eax => exact handed.saved call underway 0 28 rfl rfl
    | ecx => exact handed.saved call underway 1 24 rfl rfl
    | edx => exact handed.saved call underway 2 20 rfl rfl
    | ebx => exact handed.saved call underway 3 16 rfl rfl
    | ebp => exact handed.saved call underway 5 8 rfl rfl
    | esi => exact handed.saved call underway 6 4 rfl rfl
    | edi => exact handed.saved call underway 7 0 rfl rfl
    | esp =>
        -- what was saved of ESP itself is passed over, and its place is stepped over
        change now.stackWidth.merge (now.register .esp) (now.stackPointer + 32) = _
        rw [stackWidth_flat handed.segment, stackPointer_flat handed.segment, handed.esp,
          UInt32.sub_add_cancel]
        rfl
  case segment => exact handed.segment
  case cr0 => exact handed.cr0
  case gdtr => exact handed.gdtr
  case idtr => exact handed.idtr
  case flags => rfl
  case ports => rfl
  case memory => rfl

/-- What `int32` leaves of the processor, apart from what the BIOS has left in memory. -/
structure CallerBack (cpu now after : Cpu) : Prop where
  ip : after.ip = cpu.memory.load32 (cpu.register .esp).toNat
  esp : after.register .esp = cpu.register .esp + 4
  register : ∀ register, register ≠ .esp → after.register register = cpu.register register
  segment : after.segment = flatSegments
  cr0 : after.cr0 = cpu.cr0
  gdtr : after.gdtr = cpu.gdtr
  idtr : after.idtr = cpu.idtr
  flags : after.flags = withFlag .interrupt true now.flags
  ports : after.ports = now.ports
  memory : after.memory = now.memory

/-- The registers of the caller, from the stack, and the return to it. -/
theorem pMode32Block_returns (call : Int32Call image cpu number regs)
    (underway : Underway image cpu number regs before.memory)
    (handed : BlockHandedOver cpu regs before now) :
    Leads firmware .long ((pMode32Block image).instructions.drop 15) now
      (CallerBack cpu now) := by
  obtain ⟨room, top⟩ := call.frame_room
  have wide := codeWidth_flat (congrFun handed.segment .cs)
  have filled : now.Filled 32 :=
    filled_flat handed.segment (by rw [handed.toNat_esp call]; omega)
  obtain ⟨back, named⟩ : ∃ back, now.popped .long generalRegisters.reverse = back := ⟨_, rfl⟩
  have popped := registers_popped call underway handed
  rw [named] at popped
  have wide' := codeWidth_flat (congrFun popped.segment .cs)
  have filled' : back.Filled 4 :=
    filled_flat popped.segment (by rw [popped.register]; omega)
  refine Leads.cons wide (Cpu.pops_eq ⟨filled.below, filled.inside, filled.exists'⟩) ?_
  rw [named]
  refine Leads.cons wide' rfl ?_
  refine Leads.cons wide'
    (Instruction.execute_ret ⟨filled'.below, filled'.inside, filled'.exists'⟩) (Leads.nil ?_)
  constructor
  case ip =>
    change UInt32.ofNat (back.memory.loadLE back.stackTop 4) = _
    rw [stackTop_flat popped.segment, popped.register, popped.memory,
      handed.frame call (by omega) (by omega), underway.return', Memory.load32]
  case esp =>
    change back.stackWidth.merge (back.register .esp) (back.stackPointer + 4) = _
    rw [stackWidth_flat popped.segment, stackPointer_flat popped.segment, popped.register]
    rfl
  case register =>
    intro register apart
    rw [← popped.register register]
    exact Function.update_of_ne apart _ _
  case segment => exact popped.segment
  case cr0 => exact popped.cr0
  case gdtr => exact popped.gdtr
  case idtr => exact popped.idtr
  case flags =>
    rw [← popped.flags]
    rfl
  case ports => exact popped.ports
  case memory => exact popped.memory

end Back

theorem pMode32Block_leads {rising : Cpu} (call : Int32Call image cpu number regs)
    (restored : VectorsRestored image cpu number regs returned rising)
    (raised : Raised image cpu rising before) :
    Leads firmware .long (pMode32Block image).instructions before (Int32Done cpu regs returned) := by
  have window := call.window_regs
  rw [Apart] at window
  have lowest : windowLow = 31712 := rfl
  have low : stack16 = 31718 := rfl
  have base : int32Base = 31744 := rfl
  have size : regs16Size = 26 := rfl
  have image' : image.size = image.code.length + 68 := rfl
  have underway : Underway image cpu number regs before.memory := by
    rw [raised.memory]
    exact restored.underway
  have leads := (@pMode32Block_hands_over firmware image cpu before number regs rising call underway
    raised).trans fun now handed => by
      obtain ⟨after, ran, back⟩ :=
        @pMode32Block_returns firmware image cpu before number regs now call underway handed
      have done : Int32Done cpu regs returned after := by
        constructor
        case ip => exact back.ip
        case esp => exact back.esp
        case register => exact back.register
        case segment => rw [back.segment, call.segments]
        case cr0 => exact back.cr0
        case gdtr => exact back.gdtr
        case idtr => exact back.idtr
        case interrupts =>
          rw [back.flags]
          exact withFlag_set
        case direction =>
          rw [back.flags, withFlag_apart (by decide), handed.direction]
        case ports => rw [back.ports, handed.ports, raised.ports, restored.ports]
        case block =>
          rw [← restored.block, back.memory, handed.memory, ← raised.memory]
          exact Regs16T.load_congr fun place within => Memory.copyUp_inside (by omega) within
        case outside =>
          intro address away apart
          rw [back.memory, handed.memory, Memory.copyUp_outside (by omega), raised.memory,
            restored.outside address away]
      exact ⟨after, ran, done⟩
  rwa [List.take_append_drop] at leads

end Bootloader.Arch
