import Bootloader.Std.CpuRules

/-!
# Interrupts in protected mode

An interrupt enters its handler through a gate of the table of interrupts, with the flags and
the place it interrupts on the stack, and the handler returns to these. Some exceptions put an
error code behind them. `FlatStack` is the stack of a processor whose stack segment covers all
addresses.
-/

namespace Bootloader.Std

/-- Where an interrupt gate leads. -/
structure Gate where
  selector : UInt16
  offset : UInt32
deriving DecidableEq, Repr

/-- The gate that a vector has in a table, if it is an interrupt gate of 32 bits and present. -/
def Gate.select (memory : Memory) (table : TableRegister) (vector : UInt8) : Option Gate :=
  let place := 8 * vector.toNat
  let address := table.base.toNat + place
  if place + 7 ≤ table.limit.toNat ∧ memory (address + 5) &&& 0x9f = 0x8e then
    some
      { selector := memory.load16 (address + 2)
        offset := UInt32.ofNat
          (memory.loadLE address 2 + 0x10000 * memory.loadLE (address + 6) 2) }
  else none

namespace Cpu

/-- What an interrupt puts on the stack: the flags, the place it comes in front of, and the error
code if it has one. -/
def interruptWords (code : Option UInt32) (next : UInt32) (cpu : Cpu) : List UInt32 :=
  [cpu.flags, (cpu.segment .cs).selector.toUInt32, next] ++ code.toList

/-- Enter the handler of an interrupt that comes in front of the instruction at `next`. What
comes from a controller or an instruction has no error code, nor have most exceptions. -/
def interrupt (vector : UInt8) (code : Option UInt32) (next : UInt32) (cpu : Cpu) : Option Cpu :=
  Gate.select cpu.memory cpu.idtr vector >>= fun gate =>
    cpu.pushes .long (cpu.interruptWords code next) >>= fun saved =>
      (saved.setSegment .cs gate.selector).map fun entered =>
        (entered.setIp gate.offset).setFlags (withFlag .interrupt false entered.flags)

/-- The stack segment covers all addresses, and the stack has its top at an address. -/
structure FlatStack (cpu : Cpu) (top : Nat) : Prop where
  base : (cpu.segment .ss).base = 0
  limit : (cpu.segment .ss).limit = 0xffffffff
  width : (cpu.segment .ss).width = .long
  pointer : (cpu.register .esp).toNat = top

namespace FlatStack

variable {cpu : Cpu} {top count : Nat} {values : List UInt32}

theorem stackPointer (flat : FlatStack cpu top) : cpu.stackPointer = cpu.register .esp := by
  rw [Cpu.stackPointer, stackWidth, flat.width]
  rfl

theorem toNat_stackPointer (flat : FlatStack cpu top) : cpu.stackPointer.toNat = top := by
  rw [flat.stackPointer, flat.pointer]

theorem stackTop (flat : FlatStack cpu top) : cpu.stackTop = top := by
  rw [Cpu.stackTop, flat.base, Nat.zero_add, flat.toNat_stackPointer]

theorem room (flat : FlatStack cpu top) (above : count ≤ top) : cpu.Room count := by
  have number := flat.toNat_stackPointer
  have bound := cpu.stackPointer.toNat_lt
  have base := flat.base
  have limit := flat.limit
  exact ⟨by omega, by omega, by omega⟩

theorem filled (flat : FlatStack cpu top) (below : top + count < 2 ^ 32) : cpu.Filled count := by
  have number := flat.toNat_stackPointer
  have base := flat.base
  have limit := flat.limit
  have mask : cpu.stackWidth.mask.toNat = 0xffffffff := by
    rw [stackWidth, flat.width]
    rfl
  exact ⟨by omega, by omega, by omega⟩

/-- The stack does not depend on the code segment. -/
theorem holdCode (flat : FlatStack cpu top) (code : Segment) :
    FlatStack (cpu.holdSegment .cs code) top := by
  have apart : SegmentRegister.ss ≠ .cs := by decide
  have stack : (cpu.holdSegment .cs code).segment .ss = cpu.segment .ss :=
    Function.update_of_ne apart code cpu.segment
  exact ⟨by rw [stack, flat.base], by rw [stack, flat.limit], by rw [stack, flat.width],
    flat.pointer⟩

/-- What operands on the stack leave. -/
theorem pushed (flat : FlatStack cpu top) (above : 4 * values.length ≤ top) :
    FlatStack (cpu.pushed .long values) (top - 4 * values.length) ∧
      (cpu.pushed .long values).memory = cpu.memory.pushWords top 4 values := by
  refine ⟨⟨flat.base, flat.limit, flat.width, ?_⟩, ?_⟩
  · have room := toNat_sub_ofNat (show 4 * values.length ≤ cpu.stackPointer.toNat by
      rw [flat.toNat_stackPointer]; exact above)
    change (cpu.stackWidth.merge (cpu.register .esp)
      (cpu.stackPointer - UInt32.ofNat (4 * values.length))).toNat = _
    rw [stackWidth, flat.width, ← flat.toNat_stackPointer]
    exact room
  · change cpu.memory.pushWords cpu.stackTop 4 values = _
    rw [flat.stackTop]

/-- Operands are put on the stack one after the other. -/
theorem pushes (flat : FlatStack cpu top) (above : 4 * values.length ≤ top) :
    cpu.pushes .long values = some (cpu.pushed .long values) :=
  pushes_eq (flat.room above)

/-- One operand from the stack. -/
theorem pop (flat : FlatStack cpu top) (below : top + 4 < 2 ^ 32) :
    ∃ after, cpu.pop .long = some (UInt32.ofNat (cpu.memory.loadLE top 4), after) ∧
      Instruction.Framed cpu after ∧ after.segment = cpu.segment ∧ FlatStack after (top + 4) ∧
      ∀ register, register ≠ .esp → after.register register = cpu.register register := by
  have filled : cpu.Filled Width.long.bytes := flat.filled below
  have popped := pop_eq filled
  rw [flat.stackTop] at popped
  refine ⟨_, popped, ⟨rfl, rfl, rfl, rfl, rfl, rfl⟩, rfl,
    ⟨flat.base, flat.limit, flat.width, ?_⟩, fun register apart => Function.update_of_ne apart _ _⟩
  have number := flat.toNat_stackPointer
  have raised : (cpu.stackPointer + 4).toNat = cpu.stackPointer.toNat + 4 :=
    @toNat_offset _ 4 (by omega)
  change (cpu.stackWidth.merge (cpu.register .esp) (cpu.stackPointer + 4)).toNat = _
  rw [stackWidth, flat.width, ← number, ← raised]
  rfl

end FlatStack

variable {cpu saved : Cpu} {vector : UInt8} {code : Option UInt32} {next : UInt32} {gate : Gate}
  {entered : Segment} {top : Nat}

theorem length_interruptWords : (cpu.interruptWords code next).length = 3 + code.toList.length := by
  rw [interruptWords, List.length_append]
  rfl

/-- An interrupt whose gate leads to a code segment. -/
theorem interrupt_eq (flat : FlatStack cpu top)
    (above : 4 * (cpu.interruptWords code next).length ≤ top)
    (mode : cpu.protectedMode = true)
    (found : Gate.select cpu.memory cpu.idtr vector = some gate)
    (named : cpu.pushed .long (cpu.interruptWords code next) = saved)
    (loaded : Segment.select saved.memory cpu.gdtr .cs gate.selector = some entered) :
    cpu.interrupt vector code next =
      some (((saved.holdSegment .cs entered).setIp gate.offset).setFlags
        (withFlag .interrupt false cpu.flags)) := by
  have mode' : saved.protectedMode = true := by rw [← named]; exact mode
  have table : saved.gdtr = cpu.gdtr := by rw [← named]; rfl
  have flags : saved.flags = cpu.flags := by rw [← named]; rfl
  have pushes : cpu.pushes .long (cpu.interruptWords code next) = some saved := by
    rw [← named]
    exact flat.pushes above
  rw [interrupt, found, Option.bind_eq_bind, Option.bind_eq_bind, Option.bind_some, pushes,
    Option.bind_some, setSegment_protected mode' (by rw [table]; exact loaded), Option.map_some]
  change some (Cpu.setFlags (withFlag .interrupt false saved.flags) _) = _
  rw [flags]

end Cpu

namespace Instruction

variable {firmware : Firmware} {cpu : Cpu} {old : Register → UInt32} {top : Nat}

/-- The general registers come back from the stack as they were put there. -/
theorem popa_longs (flat : cpu.FlatStack top) (below : top + 32 < 2 ^ 32)
    (saved : ∀ index (within : index < generalRegisters.length),
      cpu.memory.loadLE (top + 4 * (7 - index)) 4 = (old generalRegisters[index]).toNat) :
    ∃ after, (popa .long).execute firmware cpu = some after ∧ Framed cpu after ∧
      after.segment = cpu.segment ∧ after.FlatStack (top + 32) ∧
      ∀ register, register ≠ .esp → after.register register = old register := by
  have filled : cpu.Filled 32 := flat.filled below
  have loaded : ∀ index register, generalRegisters[index]? = some register →
      UInt32.ofNat (cpu.memory.loadLE (cpu.stackTop + 4 * (7 - index)) 4) = old register := by
    intro index register here
    obtain ⟨within, same⟩ := List.getElem?_eq_some_iff.mp here
    rw [flat.stackTop, saved index within, same, UInt32.ofNat_toNat]
  refine ⟨_, Cpu.pops_eq ⟨filled.below, filled.inside, filled.exists'⟩, ⟨rfl, rfl, rfl, rfl, rfl, rfl⟩,
    rfl, ⟨flat.base, flat.limit, flat.width, ?_⟩, ?_⟩
  · change (cpu.stackWidth.merge (cpu.register .esp) (cpu.stackPointer + 32)).toNat = _
    have number := flat.toNat_stackPointer
    have raised : (cpu.stackPointer + 32).toNat = cpu.stackPointer.toNat + 32 :=
      @toNat_offset _ 32 (by omega)
    rw [Cpu.stackWidth, flat.width, ← number, ← raised]
    rfl
  · intro register different
    cases register with
    | eax => exact loaded 0 .eax rfl
    | ecx => exact loaded 1 .ecx rfl
    | edx => exact loaded 2 .edx rfl
    | ebx => exact loaded 3 .ebx rfl
    | esp => exact absurd rfl different
    | ebp => exact loaded 5 .ebp rfl
    | esi => exact loaded 6 .esi rfl
    | edi => exact loaded 7 .edi rfl

/-- A return from an interrupt takes the place to return to and the flags from the stack. It
faults where that place has no code segment in the table. -/
theorem iret_pops (flat : cpu.FlatStack top) (below : top + 12 < 2 ^ 32)
    (mode : cpu.protectedMode = true) :
    ∃ third, Framed cpu third ∧ third.segment = cpu.segment ∧ third.FlatStack (top + 12) ∧
      (∀ register, register ≠ .esp → third.register register = cpu.register register) ∧
      (iret .long).execute firmware cpu = (Segment.select cpu.memory cpu.gdtr .cs
        (UInt32.ofNat (cpu.memory.loadLE (top + 4) 4)).toUInt16).map fun code =>
          ((third.holdSegment .cs code).setIp (UInt32.ofNat (cpu.memory.loadLE top 4))).setFlags
            (UInt32.ofNat (cpu.memory.loadLE (top + 8) 4)) := by
  obtain ⟨first, ip, framed, segment, flat1, register⟩ := flat.pop (by omega)
  obtain ⟨second, cs, framed', segment', flat2, register'⟩ := flat1.pop (by omega)
  obtain ⟨third, flags, framed'', segment'', flat3, register''⟩ := flat2.pop (by omega)
  have whole := (framed.trans framed').trans framed''
  have mode' : third.protectedMode = true := by
    rw [Cpu.protectedMode, whole.cr0]
    exact mode
  refine ⟨third, whole, by rw [segment'', segment', segment], flat3, fun other apart => ?_, ?_⟩
  · exact (register'' other apart).trans ((register' other apart).trans (register other apart))
  · have loaded : third.setSegment .cs (UInt32.ofNat (cpu.memory.loadLE (top + 4) 4)).toUInt16 =
        (Segment.select cpu.memory cpu.gdtr .cs
          (UInt32.ofNat (cpu.memory.loadLE (top + 4) 4)).toUInt16).map fun code =>
            third.holdSegment .cs code := by
      rw [Cpu.setSegment, if_pos mode', whole.memory, whole.gdtr]
    have flags' : UInt32.ofNat (second.memory.loadLE (top + 4 + 4) 4) =
        UInt32.ofNat (cpu.memory.loadLE (top + 8) 4) := by rw [framed'.memory, framed.memory]
    change cpu.pop .long >>= _ = _
    rw [ip]
    change (first.pop .long >>= _) = _
    rw [cs]
    change (second.pop .long >>= _) = _
    rw [flags]
    change (third.setSegment .cs (UInt32.ofNat (first.memory.loadLE (top + 4) 4)).toUInt16).map _ = _
    rw [framed.memory, loaded, flags', Option.map_map]
    rfl

/-- A return from an interrupt to a code segment of the table. -/
theorem iret_long (flat : cpu.FlatStack top) (below : top + 12 < 2 ^ 32)
    (mode : cpu.protectedMode = true) {selector : UInt16} {code : Segment}
    (pushed : cpu.memory.loadLE (top + 4) 4 = selector.toUInt32.toNat)
    (loaded : Segment.select cpu.memory cpu.gdtr .cs selector = some code) :
    ∃ after, (iret .long).execute firmware cpu = some after ∧
      after.ip = UInt32.ofNat (cpu.memory.loadLE top 4) ∧
      after.flags = UInt32.ofNat (cpu.memory.loadLE (top + 8) 4) ∧
      after.segment = Function.update cpu.segment .cs code ∧ after.FlatStack (top + 12) ∧
      after.cr0 = cpu.cr0 ∧ after.gdtr = cpu.gdtr ∧ after.idtr = cpu.idtr ∧
      after.memory = cpu.memory ∧ after.ports = cpu.ports ∧
      ∀ register, register ≠ .esp → after.register register = cpu.register register := by
  obtain ⟨third, framed, segment, flat3, register, ran⟩ :=
    @iret_pops firmware cpu top flat below mode
  rw [pushed, UInt32.ofNat_toNat, UInt16.toUInt16_toUInt32, loaded, Option.map_some] at ran
  refine ⟨_, ran, rfl, rfl, ?_, ?_, framed.cr0, framed.gdtr, framed.idtr, framed.memory,
    framed.ports, register⟩
  · change Function.update third.segment .cs code = _
    rw [segment]
  · have flat' := flat3.holdCode code
    exact ⟨flat'.base, flat'.limit, flat'.width, flat'.pointer⟩

end Instruction

end Bootloader.Std
