import Bootloader.Arch.Gdt
import Bootloader.Arch.Idt
import Bootloader.Std.Gate

/-!
# The wrappers of the interrupt handlers

A wrapper saves the general registers, calls a handler written in C, acknowledges the interrupt
if it comes from a controller, restores the registers and returns. What is interrupted does not
notice. An exception with an error code does not come back, because no wrapper removes the code.
-/

namespace Bootloader.Arch

open Bootloader.Std CodeBlock

/-- The byte of an `idt_descriptor_t` that has the type of the gate, the privilege level and
whether it is present. -/
def IdtDescriptorFlags.byte (flags : IdtDescriptorFlags) : UInt8 :=
  (flags.gateType &&& (0x0f : UInt8)) ||| ((flags.privilegeLevel &&& (0x03 : UInt8)) <<< 5) |||
    ((flags.present &&& (0x01 : UInt8)) <<< 7)

/-- The bytes of an `idt_descriptor_t`. -/
def IdtDescriptor.bytes (desc : IdtDescriptor) : List UInt8 :=
  [desc.offset0_15.toUInt8, (desc.offset0_15 >>> 8).toUInt8,
    desc.segmentSelector.toUInt8, (desc.segmentSelector >>> 8).toUInt8,
    0, desc.flags.byte, desc.offset16_31.toUInt8, (desc.offset16_31 >>> 8).toUInt8]

/-- `IDT32` in memory. -/
def Idt.In (idt : Idt) (memory : Memory) (base : Nat) : Prop :=
  ∀ vector, memory.Holds (base + 8 * vector.toNat) (idt vector).bytes

/-- A wrapper: where it begins, the handler it calls, the instruction behind the call, and the
port at which it acknowledges the interrupt. -/
structure IsrWrapper where
  entry : UInt32
  handler : UInt32
  next : UInt32
  eoi : Option UInt8

namespace IsrWrapper

/-- The wrapper up to the call. -/
def enterBlock (wrapper : IsrWrapper) : CodeBlock where
  start := wrapper.entry
  assembled := .long
  intact := fun _ => true
  instructions := [.pusha .long, .call .long wrapper.handler wrapper.next]

/-- How the interrupt is acknowledged. -/
def acknowledge (wrapper : IsrWrapper) : List Instruction :=
  match wrapper.eoi with
  | none => []
  | some port => [.moveByteImmediate .al 0x20, .out port]

/-- The wrapper behind the call. -/
def leaveBlock (wrapper : IsrWrapper) : CodeBlock where
  start := wrapper.next
  assembled := .long
  intact := fun _ => true
  instructions := wrapper.acknowledge ++ [.popa .long, .iret .long]

/-- The bytes that acknowledge the interrupt. -/
def writes (wrapper : IsrWrapper) : List (UInt8 × UInt8) :=
  wrapper.eoi.toList.map fun port => (port, 0x20)

end IsrWrapper

section Wrappers

variable (entry handler next : UInt32)

/-- `_asm_default_int`. -/
def asmDefaultInt : IsrWrapper := ⟨entry, handler, next, none⟩

/-- `_asm_default_pic1_int`. -/
def asmDefaultPic1Int : IsrWrapper := ⟨entry, handler, next, some 0x20⟩

/-- `_asm_default_pic2_int`. -/
def asmDefaultPic2Int : IsrWrapper := ⟨entry, handler, next, some 0xa0⟩

/-- `_asm_clock_int`. -/
def asmClockInt : IsrWrapper := ⟨entry, handler, next, some 0x20⟩

/-- `_asm_keyboard_int`. -/
def asmKeyboardInt : IsrWrapper := ⟨entry, handler, next, some 0x20⟩

/-- `_asm_timer_int`. -/
def asmTimerInt : IsrWrapper := ⟨entry, handler, next, none⟩

/-- `_asm_kbd_getinput_int`. -/
def asmKbdGetinputInt : IsrWrapper := ⟨entry, handler, next, none⟩

end Wrappers

/-- An interrupt from its arrival in front of the instruction at `next` to its return; `service`
is what the handler written in C does. -/
def serviceInterrupt (firmware : Firmware) (wrapper : IsrWrapper) (service : Cpu → Cpu)
    (vector : UInt8) (code : Option UInt32) (next : UInt32) (cpu : Cpu) : Option Cpu :=
  cpu.interrupt vector code next >>= fun entered =>
    wrapper.enterBlock.run firmware entered >>= fun called =>
      wrapper.leaveBlock.run firmware (service called)

/-- The bytes that an interrupt itself puts on the stack. -/
def interruptBytes (code : Option UInt32) : Nat := 4 * (3 + code.toList.length)

/-- The addresses that an interrupted processor relies on: the words that the interrupt puts
on its stack and the registers of the wrapper behind them, and the table of segments. -/
def FrameKept (code : Option UInt32) (cpu : Cpu) (address : Nat) : Prop :=
  (cpu.register .esp).toNat - (interruptBytes code + 32) ≤ address ∧
      address < (cpu.register .esp).toNat ∨
    cpu.gdtr.base.toNat ≤ address ∧ address ≤ cpu.gdtr.base.toNat + cpu.gdtr.limit.toNat

/-- A processor that can be interrupted. -/
structure Interruptible (code : Option UInt32) (cpu : Cpu) : Prop where
  segments : cpu.segment = flatSegments
  mode : cpu.protectedMode = true
  room : interruptBytes code + 36 ≤ (cpu.register .esp).toNat
  codeSegment : Segment.select cpu.memory cpu.gdtr .cs isr32Seg = some (flatSegments .cs)
  table : cpu.gdtr.base.toNat + cpu.gdtr.limit.toNat <
      (cpu.register .esp).toNat - (interruptBytes code + 36) ∨
    (cpu.register .esp).toNat ≤ cpu.gdtr.base.toNat

/-- The words on the stack when the handler is called. -/
def interruptFrame (wrapper : IsrWrapper) (code : Option UInt32) (next : UInt32) (cpu : Cpu) :
    List UInt32 :=
  cpu.interruptWords code next ++
    generalRegisters.map (Function.update cpu.register .esp
      (cpu.register .esp - UInt32.ofNat (interruptBytes code))) ++ [wrapper.next]

/-- What a handler written in C finds: it is called with interrupts off, on the stack of
what is interrupted. -/
structure HandlerCalled (wrapper : IsrWrapper) (code : Option UInt32) (next : UInt32)
    (cpu called : Cpu) : Prop where
  ip : called.ip = wrapper.handler
  esp : (called.register .esp).toNat = (cpu.register .esp).toNat - (interruptBytes code + 36)
  register : ∀ register, register ≠ .esp → called.register register = cpu.register register
  segment : called.segment = flatSegments
  interrupts : called.flags &&& Flag.interrupt.mask = 0
  cr0 : called.cr0 = cpu.cr0
  gdtr : called.gdtr = cpu.gdtr
  idtr : called.idtr = cpu.idtr
  ports : called.ports = cpu.ports
  memory : called.memory =
    cpu.memory.pushWords (cpu.register .esp).toNat 4 (interruptFrame wrapper code next cpu)

/-- What the handler does: it returns to its caller, and leaves the segments, the mode and the
tables alone, and what must be kept of memory. -/
structure HandlerReturned (wrapper : IsrWrapper) (code : Option UInt32)
    (cpu called returned : Cpu) : Prop where
  ip : returned.ip = wrapper.next
  esp : returned.register .esp = called.register .esp + 4
  segment : returned.segment = called.segment
  cr0 : returned.cr0 = called.cr0
  gdtr : returned.gdtr = called.gdtr
  idtr : returned.idtr = called.idtr
  memory : ∀ address, FrameKept code cpu address →
    returned.memory address = called.memory address

/-- What is left of an interrupt: the processor as it was, in front of the instruction it
was interrupted in front of, with the memory of the handler and the interrupt acknowledged. -/
structure Serviced (wrapper : IsrWrapper) (next : UInt32) (cpu returned after : Cpu) : Prop where
  ip : after.ip = next
  register : after.register = cpu.register
  segment : after.segment = cpu.segment
  flags : after.flags = cpu.flags
  cr0 : after.cr0 = cpu.cr0
  gdtr : after.gdtr = cpu.gdtr
  idtr : after.idtr = cpu.idtr
  ports : after.ports = returned.ports ++ wrapper.writes
  memory : after.memory = returned.memory

section Gates

variable {memory : Memory} {idt : Idt} {table : TableRegister} {vector : UInt8} {handler : UInt32}

/-- The address of a handler from its halves. -/
theorem IdtDescriptor.toNat_handler (desc : IdtDescriptor) :
    desc.handler.toNat = desc.offset0_15.toNat + 0x10000 * desc.offset16_31.toNat := by
  have low := desc.offset0_15.toNat_lt
  have high := desc.offset16_31.toNat_lt
  have whole := Nat.shiftLeft_add_eq_or_of_lt (i := 16) low desc.offset16_31.toNat
  rw [Nat.shiftLeft_eq] at whole
  have shifted : (desc.offset16_31.toUInt32 <<< 16).toNat = desc.offset16_31.toNat * 2 ^ 16 := by
    have sixteen : (16 : UInt32).toNat % 32 = 16 := rfl
    rw [UInt32.toNat_shiftLeft, sixteen, UInt16.toNat_toUInt32, Nat.shiftLeft_eq,
      Nat.mod_eq_of_lt (by omega)]
  rw [IdtDescriptor.handler, UInt32.toNat_or, shifted, UInt16.toNat_toUInt32, ← whole]
  omega

theorem byte_interruptGate : interruptGate.byte = 0x8e := by decide

/-- The processor finds the handler that a descriptor was made for. -/
theorem gate_installed (stored : idt.In memory table.base.toNat)
    (limit : 2047 ≤ table.limit.toNat)
    (installed : idt vector = idtDescInit isr32Seg handler interruptGate) :
    Gate.select memory table vector = some ⟨isr32Seg, handler⟩ := by
  have bound := vector.toNat_lt
  have holds := stored vector
  obtain ⟨desc, named⟩ : ∃ desc, idtDescInit isr32Seg handler interruptGate = desc := ⟨_, rfl⟩
  rw [installed, named] at holds
  have selector : desc.segmentSelector = isr32Seg := by rw [← named]; rfl
  have rights : desc.flags.byte = 0x8e := by
    rw [← named]
    exact byte_interruptGate
  have access : memory (table.base.toNat + 8 * vector.toNat + 5) = 0x8e := by
    rw [← rights]
    exact holds.byte (by decide : 5 < 8)
  have low : memory.loadLE (table.base.toNat + 8 * vector.toNat) 2 = desc.offset0_15.toNat :=
    Memory.loadLE_word (holds.byte (by decide : 0 < 8)) (holds.byte (by decide : 1 < 8))
  have high : memory.loadLE (table.base.toNat + 8 * vector.toNat + 6) 2 = desc.offset16_31.toNat :=
    Memory.loadLE_word (holds.byte (by decide : 6 < 8)) (holds.byte (by decide : 7 < 8))
  have code : memory.loadLE (table.base.toNat + 8 * vector.toNat + 2) 2 = isr32Seg.toNat := by
    rw [← selector]
    exact Memory.loadLE_word (holds.byte (by decide : 2 < 8)) (holds.byte (by decide : 3 < 8))
  have address : desc.handler = handler := by
    rw [← named]
    exact handler_idtDescInit isr32Seg
  simp only [Gate.select, access]
  rw [if_pos ⟨by omega, by decide⟩, low, high, ← desc.toNat_handler, address, UInt32.ofNat_toNat,
    Memory.load16, code, UInt16.ofNat_toNat]

end Gates

section Service

variable {firmware : Firmware} {wrapper : IsrWrapper} {service : Cpu → Cpu} {idt : Idt}
  {vector : UInt8} {code : Option UInt32} {next : UInt32} {cpu entered called returned : Cpu}

theorem bytes_interruptWords :
    4 * (cpu.interruptWords code next).length = interruptBytes code := by
  rw [Cpu.length_interruptWords, interruptBytes]

theorem interruptBytes_le : 12 ≤ interruptBytes code ∧ interruptBytes code ≤ 16 := by
  cases code with
  | none => exact ⟨Nat.le_refl 12, (by decide : 12 ≤ 16)⟩
  | some code => exact ⟨(by decide : 12 ≤ 16), Nat.le_refl 16⟩

theorem length_interruptFrame :
    4 * (interruptFrame wrapper code next cpu).length = interruptBytes code + 36 := by
  have words := @bytes_interruptWords code next cpu
  have eight : generalRegisters.length = 8 := rfl
  rw [interruptFrame, List.length_append, List.length_append, List.length_map, eight,
    List.length_singleton]
  omega

theorem Interruptible.flatStack (ready : Interruptible code cpu) :
    cpu.FlatStack (cpu.register .esp).toNat := by
  have stack : cpu.segment .ss = Segment.flat data32 := by
    rw [ready.segments]
    rfl
  exact ⟨by rw [stack]; rfl, by rw [stack]; rfl, by rw [stack]; rfl, rfl⟩

/-- What the interrupt itself leaves. -/
structure GateEntered (wrapper : IsrWrapper) (code : Option UInt32) (next : UInt32)
    (cpu entered : Cpu) : Prop where
  ip : entered.ip = wrapper.entry
  flat : entered.FlatStack ((cpu.register .esp).toNat - interruptBytes code)
  register : ∀ register, register ≠ .esp → entered.register register = cpu.register register
  segment : entered.segment = flatSegments
  interrupts : entered.flags &&& Flag.interrupt.mask = 0
  cr0 : entered.cr0 = cpu.cr0
  gdtr : entered.gdtr = cpu.gdtr
  idtr : entered.idtr = cpu.idtr
  ports : entered.ports = cpu.ports
  memory : entered.memory =
    cpu.memory.pushWords (cpu.register .esp).toNat 4 (cpu.interruptWords code next)

theorem interrupt_enters (ready : Interruptible code cpu)
    (stored : idt.In cpu.memory cpu.idtr.base.toNat) (limit : 2047 ≤ cpu.idtr.limit.toNat)
    (installed : idt vector = idtDescInit isr32Seg wrapper.entry interruptGate) :
    ∃ entered, cpu.interrupt vector code next = some entered ∧
      GateEntered wrapper code next cpu entered := by
  have room := ready.room
  have table := ready.table
  have flat := ready.flatStack
  have bytes := @bytes_interruptWords code next cpu
  have above : 4 * (cpu.interruptWords code next).length ≤ (cpu.register .esp).toNat := by
    omega
  obtain ⟨saved, named⟩ : ∃ saved, cpu.pushed .long (cpu.interruptWords code next) = saved :=
    ⟨_, rfl⟩
  obtain ⟨flat', memory⟩ := flat.pushed above
  rw [named, bytes] at flat'
  rw [named] at memory
  have loaded : Segment.select saved.memory cpu.gdtr .cs isr32Seg = some (flatSegments .cs) := by
    rw [← ready.codeSegment, memory]
    exact Segment.select_congr fun address low high =>
      Memory.pushWords_outside (by omega) (by omega)
  have register : ∀ register, register ≠ .esp →
      saved.register register = cpu.register register := by
    intro register apart
    rw [← named]
    exact Function.update_of_ne apart _ _
  refine ⟨_, Cpu.interrupt_eq flat (by omega) ready.mode (gate_installed stored limit installed)
    named loaded, ?_⟩
  constructor
  case ip => rfl
  case flat =>
    have flat'' := flat'.holdCode (flatSegments .cs)
    exact ⟨flat''.base, flat''.limit, flat''.width, flat''.pointer⟩
  case register => exact register
  case segment =>
    have same : saved.segment = cpu.segment := by rw [← named]; rfl
    change Function.update saved.segment .cs (flatSegments .cs) = _
    rw [same, ready.segments, Function.update_eq_self]
  case interrupts => exact withFlag_clear
  case cr0 => rw [← named]; rfl
  case gdtr => rw [← named]; rfl
  case idtr => rw [← named]; rfl
  case ports => rw [← named]; rfl
  case memory => exact memory

/-- The wrapper calls its handler. -/
theorem enterBlock_leads (ready : Interruptible code cpu)
    (into : GateEntered wrapper code next cpu entered) :
    Leads firmware .long wrapper.enterBlock.instructions entered
      (HandlerCalled wrapper code next cpu) := by
  have room := ready.room
  have flat := into.flat
  have wide : entered.codeWidth = .long := by
    rw [Cpu.codeWidth, into.segment]
    rfl
  obtain ⟨saved, named⟩ : ∃ saved, entered.pushed .long
      (generalRegisters.map entered.register) = saved := ⟨_, rfl⟩
  obtain ⟨flat', memory⟩ := flat.pushed
    (show 4 * (generalRegisters.map entered.register).length ≤ _ by
      change 32 ≤ _
      omega)
  rw [named] at flat' memory
  have top : (cpu.register .esp).toNat - interruptBytes code -
      4 * (generalRegisters.map entered.register).length =
      (cpu.register .esp).toNat - (interruptBytes code + 32) := by
    change _ - interruptBytes code - 32 = _
    omega
  rw [top] at flat'
  have wide' : saved.codeWidth = .long := by rw [← named]; exact wide
  obtain ⟨flat'', memory'⟩ := flat'.pushed
    (show 4 * [wrapper.next].length ≤ _ by
      change 4 ≤ _
      omega)
  have ran : entered.pushes .long (generalRegisters.map entered.register) = some saved := by
    rw [← named]
    exact flat.pushes (by change 32 ≤ _; omega)
  have esp : entered.register .esp = cpu.register .esp - UInt32.ofNat (interruptBytes code) := by
    rw [← UInt32.toNat_inj, into.flat.pointer]
    exact (@Cpu.toNat_sub_ofNat (cpu.register .esp) (interruptBytes code) (by omega)).symm
  have registers : entered.register = Function.update cpu.register .esp
      (cpu.register .esp - UInt32.ofNat (interruptBytes code)) := by
    funext register
    by_cases here : register = .esp
    · rw [here, esp, Function.update_self]
    · rw [into.register register here, Function.update_of_ne here]
  have bytes := @bytes_interruptWords code next cpu
  refine Leads.cons wide ran ?_
  refine Leads.cons wide'
    (Instruction.execute_call (flat'.room (by change 4 ≤ _; omega))) (Leads.nil ?_)
  constructor
  case ip => rfl
  case esp =>
    rw [show (cpu.register .esp).toNat - (interruptBytes code + 36) =
      (cpu.register .esp).toNat - (interruptBytes code + 32) - 4 by omega]
    exact flat''.pointer
  case register =>
    intro register apart
    have first : saved.register register = entered.register register := by
      rw [← named]
      exact Function.update_of_ne apart _ _
    rw [← into.register register apart, ← first]
    exact Function.update_of_ne apart _ _
  case segment =>
    rw [← into.segment, ← named]
    rfl
  case interrupts =>
    have interrupts := into.interrupts
    rw [← named]
    exact interrupts
  case cr0 => rw [← into.cr0, ← named]; rfl
  case gdtr => rw [← into.gdtr, ← named]; rfl
  case idtr => rw [← into.idtr, ← named]; rfl
  case ports => rw [← into.ports, ← named]; rfl
  case memory =>
    have behind : 4 * (cpu.interruptWords code next ++
        generalRegisters.map entered.register).length = interruptBytes code + 32 := by
      rw [List.length_append, Nat.mul_add, bytes]
      rfl
    change (saved.pushed .long [wrapper.next]).memory = _
    rw [memory', memory, into.memory, interruptFrame, ← registers, Memory.pushWords_append,
      Memory.pushWords_append, behind, bytes]

/-- The bytes of the frame that the return relies on. -/
theorem HandlerReturned.frame (ready : Interruptible code cpu)
    (into : HandlerCalled wrapper code next cpu called)
    (back : HandlerReturned wrapper code cpu called returned) {index : Nat}
    (within : 4 * (index + 1) ≤ interruptBytes code + 32) {value : UInt32}
    (here : (interruptFrame wrapper code next cpu)[index]? = some value) :
    returned.memory.loadLE ((cpu.register .esp).toNat - 4 * (index + 1)) 4 = value.toNat := by
  have room := ready.room
  have bound := value.toNat_lt
  obtain ⟨stored, same⟩ := List.getElem?_eq_some_iff.mp here
  have length := @length_interruptFrame wrapper code next cpu
  rw [Memory.loadLE_congr fun place inside => back.memory _ (Or.inl ⟨by omega, by omega⟩),
    into.memory, Memory.loadLE_pushWords stored (by omega), same, Nat.mod_eq_of_lt (by omega)]

/-- The table of segments is still in place. -/
theorem HandlerReturned.select (ready : Interruptible code cpu)
    (into : HandlerCalled wrapper code next cpu called)
    (back : HandlerReturned wrapper code cpu called returned) (selector : UInt16) :
    Segment.select returned.memory cpu.gdtr .cs selector =
      Segment.select cpu.memory cpu.gdtr .cs selector := by
  have room := ready.room
  have table := ready.table
  have length := @length_interruptFrame wrapper code next cpu
  refine Segment.select_congr fun address low high => ?_
  rw [back.memory address (Or.inr ⟨low, high⟩), into.memory,
    Memory.pushWords_outside (by omega) (by omega)]

/-- What the acknowledgement leaves. -/
structure Acknowledged (wrapper : IsrWrapper) (returned now : Cpu) : Prop where
  esp : now.register .esp = returned.register .esp
  segment : now.segment = returned.segment
  cr0 : now.cr0 = returned.cr0
  gdtr : now.gdtr = returned.gdtr
  idtr : now.idtr = returned.idtr
  ports : now.ports = returned.ports ++ wrapper.writes
  memory : now.memory = returned.memory

theorem acknowledge_leads (wide : returned.codeWidth = .long) :
    Leads firmware .long wrapper.acknowledge returned (Acknowledged wrapper returned) := by
  rw [IsrWrapper.acknowledge]
  cases eoi : wrapper.eoi with
  | none =>
      have writes : wrapper.writes = [] := by rw [IsrWrapper.writes, eoi]; rfl
      refine Leads.nil ⟨rfl, rfl, rfl, rfl, rfl, ?_, rfl⟩
      rw [writes, List.append_nil]
  | some port =>
      have writes : wrapper.writes = [(port, 0x20)] := by rw [IsrWrapper.writes, eoi]; rfl
      refine Leads.cons wide rfl (Leads.cons wide rfl (Leads.nil ⟨?_, rfl, rfl, rfl, rfl, ?_, rfl⟩))
      · have apart : Register.esp ≠ .eax := by decide
        exact Function.update_of_ne apart
          (ByteRegister.al.merge (returned.register .eax) 0x20) returned.register
      · change returned.ports ++ [(port, (returned.setByte .al 0x20).byte .al)] = _
        rw [Cpu.byte_setByte, writes]

/-- What the wrapper leaves in front of its return: the registers of what was interrupted, and on
the stack the words of the interrupt. -/
structure Restored (wrapper : IsrWrapper) (code : Option UInt32) (next : UInt32)
    (cpu returned now : Cpu) : Prop where
  flat : now.FlatStack ((cpu.register .esp).toNat - interruptBytes code)
  register : ∀ register, register ≠ .esp → now.register register = cpu.register register
  segment : now.segment = flatSegments
  cr0 : now.cr0 = cpu.cr0
  gdtr : now.gdtr = cpu.gdtr
  idtr : now.idtr = cpu.idtr
  ports : now.ports = returned.ports ++ wrapper.writes
  memory : now.memory = returned.memory
  word : ∀ index value, (cpu.interruptWords code next)[index]? = some value →
    now.memory.loadLE ((cpu.register .esp).toNat - 4 * (index + 1)) 4 = value.toNat

theorem restored_leads (ready : Interruptible code cpu)
    (into : HandlerCalled wrapper code next cpu called)
    (back : HandlerReturned wrapper code cpu called returned) :
    Leads firmware .long (wrapper.acknowledge ++ [.popa .long]) returned
      (Restored wrapper code next cpu returned) := by
  have room := ready.room
  have bound := (cpu.register .esp).toNat_lt
  have bytes := @bytes_interruptWords code next cpu
  have size := @interruptBytes_le code
  have segments : returned.segment = flatSegments := back.segment.trans into.segment
  have wide : returned.codeWidth = .long := by
    rw [Cpu.codeWidth, segments]
    rfl
  have pointer : (returned.register .esp).toNat =
      (cpu.register .esp).toNat - (interruptBytes code + 32) := by
    have four : (4 : UInt32).toNat = 4 := rfl
    rw [back.esp, toNat_add_of_lt (by rw [into.esp, four]; omega), into.esp, four]
    omega
  refine (acknowledge_leads wide).trans fun now acknowledged => ?_
  have stack : now.segment .ss = Segment.flat data32 := by
    rw [acknowledged.segment, segments]
    rfl
  have flat : now.FlatStack ((cpu.register .esp).toNat - (interruptBytes code + 32)) :=
    ⟨by rw [stack]; rfl, by rw [stack]; rfl, by rw [stack]; rfl,
      by rw [acknowledged.esp, pointer]⟩
  have wide' : now.codeWidth = .long := by
    rw [Cpu.codeWidth, acknowledged.segment]
    exact wide
  obtain ⟨old, named⟩ : ∃ old, Function.update cpu.register .esp
      (cpu.register .esp - UInt32.ofNat (interruptBytes code)) = old := ⟨_, rfl⟩
  have saved : ∀ index (within : index < generalRegisters.length),
      now.memory.loadLE ((cpu.register .esp).toNat - (interruptBytes code + 32) +
        4 * (7 - index)) 4 = (old generalRegisters[index]).toNat := by
    intro index within
    have short : index < 8 := within
    have here : (interruptFrame wrapper code next cpu)[
        (cpu.interruptWords code next).length + index]? = some (old generalRegisters[index]) := by
      rw [interruptFrame, named, List.append_assoc,
        List.getElem?_append_right (Nat.le_add_right _ _), Nat.add_sub_cancel_left,
        List.getElem?_append_left (by rw [List.length_map]; exact within), List.getElem?_map,
        List.getElem?_eq_getElem within]
      rfl
    have place : (cpu.register .esp).toNat - (interruptBytes code + 32) + 4 * (7 - index) =
        (cpu.register .esp).toNat - 4 * ((cpu.interruptWords code next).length + index + 1) := by
      omega
    rw [acknowledged.memory, place]
    exact back.frame ready into (by omega) here
  obtain ⟨popped, ran, framed, segment, flat', register⟩ :=
    @Instruction.popa_longs firmware now old _ flat (by omega) saved
  refine Leads.cons wide' ran (Leads.nil ?_)
  constructor
  case flat =>
    rw [show (cpu.register .esp).toNat - interruptBytes code =
      (cpu.register .esp).toNat - (interruptBytes code + 32) + 32 by omega]
    exact flat'
  case register =>
    intro other apart
    rw [register other apart, ← named, Function.update_of_ne apart]
  case segment => rw [segment, acknowledged.segment, segments]
  case cr0 => rw [framed.cr0, acknowledged.cr0, back.cr0, into.cr0]
  case gdtr => rw [framed.gdtr, acknowledged.gdtr, back.gdtr, into.gdtr]
  case idtr => rw [framed.idtr, acknowledged.idtr, back.idtr, into.idtr]
  case ports => rw [framed.ports, acknowledged.ports]
  case memory => rw [framed.memory, acknowledged.memory]
  case word =>
    intro index value here
    obtain ⟨within, _⟩ := List.getElem?_eq_some_iff.mp here
    rw [framed.memory, acknowledged.memory]
    refine back.frame ready into (by omega) ?_
    rw [interruptFrame, List.append_assoc, List.getElem?_append_left within, here]

theorem Restored.mode {now : Cpu} (ready : Interruptible code cpu)
    (restored : Restored wrapper code next cpu returned now) : now.protectedMode = true := by
  rw [Cpu.protectedMode, restored.cr0]
  exact ready.mode

theorem Restored.wide {now : Cpu} (restored : Restored wrapper code next cpu returned now) :
    now.codeWidth = .long := by
  rw [Cpu.codeWidth, restored.segment]
  rfl

/-- Without an error code, the wrapper returns to what was interrupted. -/
theorem Restored.returns {now : Cpu} (ready : Interruptible none cpu)
    (into : HandlerCalled wrapper none next cpu called)
    (back : HandlerReturned wrapper none cpu called returned)
    (restored : Restored wrapper none next cpu returned now) :
    Leads firmware .long [.iret .long] now (Serviced wrapper next cpu returned) := by
  have room : 48 ≤ (cpu.register .esp).toNat := ready.room
  have bound := (cpu.register .esp).toNat_lt
  have flat : now.FlatStack ((cpu.register .esp).toNat - 12) := restored.flat
  have word := restored.word
  have selector : (cpu.segment .cs).selector = isr32Seg := by
    rw [ready.segments]
    rfl
  have place : now.memory.loadLE ((cpu.register .esp).toNat - 12) 4 = next.toNat :=
    word 2 next rfl
  have segmentWord : now.memory.loadLE ((cpu.register .esp).toNat - 12 + 4) 4 =
      (cpu.segment .cs).selector.toUInt32.toNat := by
    rw [← word 1 _ rfl]
    congr 1
    omega
  have flagsWord : now.memory.loadLE ((cpu.register .esp).toNat - 12 + 8) 4 = cpu.flags.toNat := by
    rw [← word 0 _ rfl]
    congr 1
    omega
  have found : Segment.select now.memory now.gdtr .cs (cpu.segment .cs).selector =
      some (flatSegments .cs) := by
    rw [restored.memory, restored.gdtr, back.select ready into, selector, ready.codeSegment]
  obtain ⟨after, ran, ip, flags, segment, flat', cr0, gdtr, idtr, memory, ports, register⟩ :=
    @Instruction.iret_long firmware now _ flat (by omega) (restored.mode ready) _ _ segmentWord
      found
  refine Leads.cons restored.wide ran (Leads.nil ?_)
  constructor
  case ip => rw [ip, place, UInt32.ofNat_toNat]
  case register =>
    funext other
    by_cases here : other = .esp
    · have number := flat'.pointer
      rw [here, ← UInt32.toNat_inj, number]
      omega
    · rw [register other here, restored.register other here]
  case segment => rw [segment, restored.segment, Function.update_eq_self, ready.segments]
  case flags => rw [flags, flagsWord, UInt32.ofNat_toNat]
  case cr0 => rw [cr0, restored.cr0]
  case gdtr => rw [gdtr, restored.gdtr]
  case idtr => rw [idtr, restored.idtr]
  case ports => rw [ports, restored.ports]
  case memory => rw [memory, restored.memory]

/-- With an error code, the wrapper takes the code for the place to return to, and that place for
the segment. -/
theorem Restored.strays {now : Cpu} {pushed : UInt32} (ready : Interruptible (some pushed) cpu)
    (into : HandlerCalled wrapper (some pushed) next cpu called)
    (back : HandlerReturned wrapper (some pushed) cpu called returned)
    (restored : Restored wrapper (some pushed) next cpu returned now) :
    ∃ third, (Instruction.iret .long).execute firmware now =
      (Segment.select cpu.memory cpu.gdtr .cs next.toUInt16).map fun found =>
        (Cpu.setIp pushed (Cpu.holdSegment .cs found third)).setFlags
          (cpu.segment .cs).selector.toUInt32 := by
  have room : 52 ≤ (cpu.register .esp).toNat := ready.room
  have bound := (cpu.register .esp).toNat_lt
  have flat : now.FlatStack ((cpu.register .esp).toNat - 16) := restored.flat
  have word := restored.word
  have place : now.memory.loadLE ((cpu.register .esp).toNat - 16) 4 = pushed.toNat :=
    word 3 pushed rfl
  have segmentWord : now.memory.loadLE ((cpu.register .esp).toNat - 16 + 4) 4 = next.toNat := by
    rw [← word 2 _ rfl]
    congr 1
    omega
  have flagsWord : now.memory.loadLE ((cpu.register .esp).toNat - 16 + 8) 4 =
      (cpu.segment .cs).selector.toUInt32.toNat := by
    rw [← word 1 _ rfl]
    congr 1
    omega
  obtain ⟨third, _, _, _, _, ran⟩ :=
    @Instruction.iret_pops firmware now _ flat (by omega) (restored.mode ready)
  rw [place, segmentWord, flagsWord, UInt32.ofNat_toNat, UInt32.ofNat_toNat, UInt32.ofNat_toNat,
    restored.memory, restored.gdtr, back.select ready into] at ran
  exact ⟨third, ran⟩

/-- The handler of an interrupt is called, and the wrapper behind the call does what its last
instructions do. -/
theorem serviceInterrupt_eq (ready : Interruptible code cpu)
    (stored : idt.In cpu.memory cpu.idtr.base.toNat) (limit : 2047 ≤ cpu.idtr.limit.toNat)
    (installed : idt vector = idtDescInit isr32Seg wrapper.entry interruptGate)
    (returns : ∀ called, HandlerCalled wrapper code next cpu called →
      HandlerReturned wrapper code cpu called (service called)) :
    ∃ called now, HandlerCalled wrapper code next cpu called ∧
      Restored wrapper code next cpu (service called) now ∧
      serviceInterrupt firmware wrapper service vector code next cpu =
        steps firmware .long [.iret .long] now := by
  obtain ⟨entered, arrived, into⟩ := @interrupt_enters wrapper idt vector code next cpu ready stored
    limit installed
  obtain ⟨called, ran, handler⟩ :=
    @enterBlock_leads firmware wrapper code next cpu entered ready into
  have back := returns called handler
  obtain ⟨now, ran', restored⟩ :=
    @restored_leads firmware wrapper code next cpu called (service called) ready handler back
  refine ⟨called, now, handler, restored, ?_⟩
  have first : wrapper.enterBlock.run firmware entered = some called := by
    rw [CodeBlock.run, if_pos ⟨into.ip, rfl⟩]
    exact ran
  have split : wrapper.leaveBlock.instructions =
      (wrapper.acknowledge ++ [.popa .long]) ++ [.iret .long] := by
    rw [List.append_assoc]
    rfl
  have second : wrapper.leaveBlock.run firmware (service called) =
      steps firmware .long [.iret .long] now := by
    rw [CodeBlock.run, if_pos ⟨back.ip, rfl⟩, split]
    exact steps_append ran'
  rw [serviceInterrupt, arrived, Option.bind_eq_bind, Option.bind_some, first, Option.bind_some,
    second]

/-- An interrupt without an error code, whose descriptor leads to a wrapper, runs its handler, is
acknowledged at the controller it comes from, and is not noticed by what it interrupts. -/
theorem interrupt_transparent (ready : Interruptible none cpu)
    (stored : idt.In cpu.memory cpu.idtr.base.toNat) (limit : 2047 ≤ cpu.idtr.limit.toNat)
    (installed : idt vector = idtDescInit isr32Seg wrapper.entry interruptGate)
    (returns : ∀ called, HandlerCalled wrapper none next cpu called →
      HandlerReturned wrapper none cpu called (service called)) :
    ∃ called after, HandlerCalled wrapper none next cpu called ∧
      serviceInterrupt firmware wrapper service vector none next cpu = some after ∧
      Serviced wrapper next cpu (service called) after := by
  obtain ⟨called, now, handler, restored, ran⟩ := @serviceInterrupt_eq firmware wrapper service idt
    vector none next cpu ready stored limit installed returns
  obtain ⟨after, back, done⟩ := @Restored.returns firmware wrapper next cpu called (service called)
    now ready handler (returns called handler) restored
  exact ⟨called, after, handler, ran.trans back, done⟩

end Service

section Example

/-- A table of interrupts at 0x24200, behind the tables of segments. -/
def exampleTables (idt : Idt) : Memory := fun address =>
  if 0x24200 ≤ address then
    (idt (UInt8.ofNat ((address - 0x24200) / 8))).bytes.getD ((address - 0x24200) % 8) 0
  else i86GdtStore exampleGdtPlaces (fun _ => 0) address

theorem exampleTables_in (idt : Idt) : idt.In (exampleTables idt) 0x24200 := by
  intro vector
  have bound := vector.toNat_lt
  apply Memory.holds_of_byte
  intro place within
  have short : place < 8 := within
  have index : (0x24200 + 8 * vector.toNat + place - 0x24200) / 8 = vector.toNat := by omega
  have byte : (0x24200 + 8 * vector.toNat + place - 0x24200) % 8 = place := by omega
  rw [exampleTables, if_pos (by omega), index, byte, UInt8.ofNat_toNat, List.getD_eq_getElem?_getD,
    List.getElem?_eq_getElem within, Option.getD_some]

/-- The wrapper of the clock, its handler and the instruction behind the call. -/
def exampleClock : IsrWrapper := asmClockInt 0x15000 0x13000 0x15006

/-- The table with these wrappers. -/
def exampleIdt : Idt := i86IdtInstallIr 0x20 0x15000 interruptGate
  (i86IdtInstallIr 0x0d 0x16000 interruptGate (i86IdtInit exampleStubs))

/-- A processor that runs with these tables. -/
def exampleRunning : Cpu where
  register := fun register => if register = .esp then 0x9e000 else 7
  segment := flatSegments
  flags := 0x202
  cr0 := 0x11
  gdtr := gdt32Table exampleGdtPlaces
  idtr := ⟨0x800, 0x24200⟩
  ip := 0x12000
  memory := exampleTables exampleIdt
  ports := []

/-- A handler that returns at once. -/
def idleService (called : Cpu) : Cpu :=
  (called.setStackPointer (called.stackPointer + 4)).setIp
    (UInt32.ofNat (called.memory.loadLE called.stackTop 4))

theorem exampleRunning_interruptible (code : Option UInt32) : Interruptible code exampleRunning where
  segments := rfl
  mode := by decide
  room := by
    have size := @interruptBytes_le code
    have esp : (exampleRunning.register .esp).toNat = 0x9e000 := rfl
    omega
  codeSegment := by
    have call : GdtCall exampleGdtPlaces exampleFlat :=
      { mode := by decide
        wide := rfl
        reach := Segment.linear_flat (by decide)
        room := by decide
        apart := Or.inl (by decide) }
    rw [← select_gdt32 call (fun _ => 0) .cs]
    refine Segment.select_congr fun address low high => if_neg ?_
    have base : exampleRunning.gdtr.base.toNat = 0x24018 := rfl
    have limit : exampleRunning.gdtr.limit.toNat = 24 := rfl
    omega
  table := by
    have size := @interruptBytes_le code
    have esp : (exampleRunning.register .esp).toNat = 0x9e000 := rfl
    have base : exampleRunning.gdtr.base.toNat = 0x24018 := rfl
    have limit : exampleRunning.gdtr.limit.toNat = 24 := rfl
    exact Or.inl (by omega)

theorem idleService_returns {wrapper : IsrWrapper} {code : Option UInt32} {next : UInt32}
    {called : Cpu} (into : HandlerCalled wrapper code next exampleRunning called) :
    HandlerReturned wrapper code exampleRunning called (idleService called) := by
  have size := @interruptBytes_le code
  have length := @length_interruptFrame wrapper code next exampleRunning
  have esp : (exampleRunning.register .esp).toNat = 0x9e000 := rfl
  have stack : called.segment .ss = Segment.flat data32 := by
    rw [into.segment]
    rfl
  have flat : called.FlatStack (0x9e000 - (interruptBytes code + 36)) :=
    ⟨by rw [stack]; rfl, by rw [stack]; rfl, by rw [stack]; rfl, into.esp⟩
  constructor
  case ip =>
    have words : (interruptFrame wrapper code next exampleRunning).length =
        (exampleRunning.interruptWords code next ++ generalRegisters.map
          (Function.update exampleRunning.register .esp (exampleRunning.register .esp -
            UInt32.ofNat (interruptBytes code)))).length + 1 := List.length_append
    obtain ⟨count, named⟩ : ∃ count, (exampleRunning.interruptWords code next ++
        generalRegisters.map (Function.update exampleRunning.register .esp
          (exampleRunning.register .esp - UInt32.ofNat (interruptBytes code)))).length = count :=
      ⟨_, rfl⟩
    rw [named] at words
    have stored : count < (interruptFrame wrapper code next exampleRunning).length := by omega
    have last : (interruptFrame wrapper code next exampleRunning)[count] = wrapper.next := by
      simp only [interruptFrame, ← named, List.getElem_concat_length]
    have top : called.memory.loadLE (0x9e000 - (interruptBytes code + 36)) 4 =
        wrapper.next.toNat := by
      have place : 0x9e000 - (interruptBytes code + 36) = 0x9e000 - 4 * (count + 1) := by omega
      have bound := wrapper.next.toNat_lt
      rw [into.memory, place, esp, Memory.loadLE_pushWords stored (by omega), last,
        Nat.mod_eq_of_lt (by omega)]
    change UInt32.ofNat (called.memory.loadLE called.stackTop 4) = _
    rw [flat.stackTop, top, UInt32.ofNat_toNat]
  case esp =>
    change called.stackWidth.merge (called.register .esp) (called.stackPointer + 4) = _
    rw [Cpu.stackWidth, flat.width, flat.stackPointer]
    rfl
  case segment => rfl
  case cr0 => rfl
  case gdtr => rfl
  case idtr => rfl
  case memory => exact fun _ _ => rfl

theorem exampleIdt_clock :
    exampleIdt 0x20 = idtDescInit isr32Seg exampleClock.entry interruptGate := by
  rw [exampleIdt, i86IdtInstallIr, Function.update_self]
  rfl

theorem interrupt_transparent_clock :
    ∃ called after, HandlerCalled exampleClock none 0x12345 exampleRunning called ∧
      serviceInterrupt silentFirmware exampleClock idleService 0x20 none 0x12345 exampleRunning =
        some after ∧
      Serviced exampleClock 0x12345 exampleRunning (idleService called) after :=
  interrupt_transparent (exampleRunning_interruptible none) (exampleTables_in exampleIdt)
    (show 2047 ≤ 0x800 by decide) exampleIdt_clock
    fun _ into => idleService_returns into

end Example

end Bootloader.Arch
