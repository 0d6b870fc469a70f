import Bootloader.Arch.Int32
import Bootloader.Std.CpuRules

/-!
# The vectors of the interrupt controllers in real mode

`resetpic` is assembled for 32-bit code and called from 16-bit code: its pushes and pops are
of the other size than they look, but of the same size among themselves, and its return takes
what the call has left.
-/

namespace Bootloader.Arch

open Bootloader.Std CodeBlock

section Resetpic

variable {firmware : Firmware} {image : Int32Image} {before : Cpu} {next : UInt32}

/-- What `resetpic` writes to the controllers. -/
def resetpicWrites (master slave : UInt8) : List (UInt8 × UInt8) :=
  [(0x20, 0x11), (0xA0, 0x11), (0x21, master), (0xA1, slave), (0x21, 0x04), (0xA1, 0x02),
    (0x21, 0x01), (0xA1, 0x01)]

/-- A call of `resetpic` in real mode, with the offset it returns to on the stack. -/
structure ResetpicCall (before : Cpu) (next : UInt32) : Prop where
  narrow : before.codeWidth = .word
  stack : before.stackWidth = .word
  base : (before.segment .ss).base = 0
  limit : 0xffff ≤ (before.segment .ss).limit
  above : 4 ≤ before.stackPointer.toNat
  below : before.stackPointer.toNat + 2 ≤ 0xffff
  next : before.memory.loadLE before.stackPointer.toNat 2 = next.toNat

/-- What `resetpic` leaves: the controllers have their vectors, and all registers are as
before. -/
structure Reset (before : Cpu) (next : UInt32) (after : Cpu) : Prop where
  ip : after.ip = next
  segment : after.segment = before.segment
  cr0 : after.cr0 = before.cr0
  gdtr : after.gdtr = before.gdtr
  idtr : after.idtr = before.idtr
  register : ∀ register, register ≠ .esp → after.register register = before.register register
  stackPointer : after.stackPointer = before.stackPointer + 2
  ports : after.ports = before.ports ++ resetpicWrites (before.byte .bh) (before.byte .bl)
  memory : ∀ address,
    address < before.stackPointer.toNat - 4 ∨ before.stackPointer.toNat ≤ address →
      after.memory address = before.memory address

/-- EAX is on the stack, as a whole, and free for use. -/
structure AccumulatorSaved (before now : Cpu) : Prop where
  pointer : now.stackPointer = before.stackPointer - 4
  segment : now.segment = before.segment
  cr0 : now.cr0 = before.cr0
  gdtr : now.gdtr = before.gdtr
  idtr : now.idtr = before.idtr
  register : ∀ register, register ≠ .esp → register ≠ .eax →
    now.register register = before.register register
  memory : now.memory = before.memory.storeLE (before.stackPointer.toNat - 4) 4
    (before.register .eax).toNat

/-- EAX and the stack pointer are back. -/
structure AccumulatorRestored (before now after : Cpu) : Prop where
  pointer : after.stackPointer = before.stackPointer
  segment : after.segment = before.segment
  cr0 : after.cr0 = before.cr0
  gdtr : after.gdtr = before.gdtr
  idtr : after.idtr = before.idtr
  register : ∀ register, register ≠ .esp → after.register register = before.register register
  ports : after.ports = now.ports
  memory : after.memory = now.memory

section Accumulator

variable {now : Cpu} {rest : List Instruction} {Post : Cpu → Prop}

theorem accumulator_pushed (call : ResetpicCall before next) :
    ∃ saved, before.push .long (before.register .eax) = some saved ∧
      AccumulatorSaved before saved ∧ saved.ports = before.ports := by
  have above := call.above
  have below := call.below
  have limit := call.limit
  have base := call.base
  have top : before.stackTop = before.stackPointer.toNat := by
    rw [Cpu.stackTop, base, Nat.zero_add]
  have room : before.Room 4 := ⟨above, by omega, by omega⟩
  refine ⟨_, Cpu.push_eq room, ?_, rfl⟩
  constructor
  case pointer => exact Cpu.stackPointer_pushed above
  case segment => rfl
  case cr0 => rfl
  case gdtr => rfl
  case idtr => rfl
  case register => exact fun register apart _ => Function.update_of_ne apart _ _
  case memory =>
    rw [← top]
    rfl

/-- The fourteen instructions that write to the controllers. -/
theorem written_leads (other : now.codeWidth ≠ .long) (saved : AccumulatorSaved before now)
    (same : now.ports = before.ports)
    (more : ∀ after, AccumulatorSaved before after →
      after.ports = before.ports ++ resetpicWrites (before.byte .bh) (before.byte .bl) →
        Leads firmware .long rest after Post) :
    Leads firmware .long
      (.moveByteImmediate .al 0x11 :: .out 0x20 :: .out 0xA0 :: .moveByte .al .bh :: .out 0x21 ::
        .moveByte .al .bl :: .out 0xA1 :: .moveByteImmediate .al 0x04 :: .out 0x21 ::
        .shrByte .al :: .out 0xA1 :: .shrByte .al :: .out 0x21 :: .out 0xA1 :: rest) now Post := by
  refine Leads.reread other rfl rfl ?_
  refine Leads.reread other rfl rfl ?_
  refine Leads.reread other rfl rfl ?_
  refine Leads.reread other rfl rfl ?_
  refine Leads.reread other rfl rfl ?_
  refine Leads.reread other rfl rfl ?_
  refine Leads.reread other rfl rfl ?_
  refine Leads.reread other rfl rfl ?_
  refine Leads.reread other rfl rfl ?_
  refine Leads.reread other rfl rfl ?_
  refine Leads.reread other rfl rfl ?_
  refine Leads.reread other rfl rfl ?_
  refine Leads.reread other rfl rfl ?_
  refine Leads.reread other rfl rfl (more _ ?_ ?_)
  · constructor
    case pointer => exact saved.pointer
    case segment => exact saved.segment
    case cr0 => exact saved.cr0
    case gdtr => exact saved.gdtr
    case idtr => exact saved.idtr
    case memory => exact saved.memory
    case register =>
      intro register stack accumulator
      have kept := saved.register register stack accumulator
      cases register with
      | eax => exact absurd rfl accumulator
      | esp => exact absurd rfl stack
      | ecx => exact kept
      | edx => exact kept
      | ebx => exact kept
      | ebp => exact kept
      | esi => exact kept
      | edi => exact kept
  · have apart : Register.ebx ≠ .eax := by decide
    have ebx := saved.register .ebx (by decide) apart
    simp only [Cpu.setRegister, Cpu.setRegisters, Cpu.output, Cpu.setByte, Cpu.setFlags, Cpu.byte,
      ByteRegister.register, Function.update_self, Function.update_of_ne apart, part_merge,
      List.append_assoc, same, ebx]
    rfl

/-- What has been pushed is popped again. -/
theorem accumulator_popped (call : ResetpicCall before next)
    (saved : AccumulatorSaved before now) :
    ∃ after, (Instruction.pop .long .eax).execute firmware now = some after ∧
      AccumulatorRestored before now after := by
  have below := call.below
  have limit := call.limit
  have base := call.base
  have segment := saved.segment
  have bound := (before.register .eax).toNat_lt
  have lowered : now.stackPointer.toNat = before.stackPointer.toNat - 4 := by
    rw [saved.pointer]
    exact Cpu.toNat_sub_ofNat call.above
  have mask : now.stackWidth.mask.toNat = 0xffff := by
    rw [Cpu.stackWidth, segment]
    change before.stackWidth.mask.toNat = _
    rw [call.stack]
    rfl
  have stacked : now.Filled 4 :=
    ⟨by omega, by rw [segment]; omega, by rw [segment]; omega⟩
  refine ⟨_, Instruction.execute_pop ⟨stacked.below, stacked.inside, stacked.exists'⟩, ?_⟩
  constructor
  case pointer =>
    have raised : now.stackPointer + 4 = before.stackPointer := by
      rw [saved.pointer, UInt32.sub_add_cancel]
    change now.stackWidth.take (now.stackWidth.merge (now.register .esp)
      (now.stackPointer + 4)) = _
    rw [Width.take_merge, raised, Cpu.stackWidth, segment]
    exact Width.take_take
  case segment => exact segment
  case cr0 => exact saved.cr0
  case gdtr => exact saved.gdtr
  case idtr => exact saved.idtr
  case register =>
    intro register stack
    by_cases accumulator : register = .eax
    · subst accumulator
      change UInt32.ofNat (now.memory.loadLE ((now.segment .ss).base + now.stackPointer.toNat) 4) =
        _
      rw [segment, base, Nat.zero_add, lowered, saved.memory, Memory.loadLE_storeLE,
        Nat.mod_eq_of_lt (by omega), UInt32.ofNat_toNat]
    · have kept := saved.register register stack accumulator
      exact (Function.update_of_ne accumulator _ _).trans
        ((Function.update_of_ne stack _ _).trans kept)
  case ports => rfl
  case memory => rfl

end Accumulator

theorem resetpicBlock_leads (call : ResetpicCall before next) :
    Leads firmware .long (resetpicBlock image).instructions before (Reset before next) := by
  have above := call.above
  have below := call.below
  have limit := call.limit
  have base := call.base
  have different : before.codeWidth ≠ .long := by
    rw [call.narrow]
    decide
  have others : ∀ {now : Cpu}, now.segment = before.segment → now.codeWidth ≠ .long := by
    intro now same
    rw [Cpu.codeWidth, same]
    exact different
  -- The pushed register is EAX as a whole, and so is the popped one.
  have push : (Instruction.push .word .eax).reread = some (.push .long .eax) := rfl
  have pop : (Instruction.pop .word .eax).reread = some (.pop .long .eax) := rfl
  have return' : (Instruction.ret .long).reread = some (.ret .word) := rfl
  obtain ⟨first, ran, saved, same⟩ := accumulator_pushed call
  refine Leads.reread different push ran ?_
  refine written_leads (others saved.segment) saved same fun second written ports => ?_
  obtain ⟨third, ran', restored⟩ := @accumulator_popped firmware _ _ _ call written
  refine Leads.reread (others written.segment) pop ran' ?_
  have pointer := restored.pointer
  have segment := restored.segment
  have mask : third.stackWidth.mask.toNat = 0xffff := by
    rw [Cpu.stackWidth, segment]
    change before.stackWidth.mask.toNat = _
    rw [call.stack]
    rfl
  have stacked : third.Filled 2 :=
    ⟨by rw [pointer]; omega, by rw [pointer, segment]; omega, by rw [pointer, segment]; omega⟩
  refine Leads.reread (others segment) return'
    (Instruction.execute_ret ⟨stacked.below, stacked.inside, stacked.exists'⟩) (Leads.nil ?_)
  constructor
  case ip =>
    change UInt32.ofNat (third.memory.loadLE ((third.segment .ss).base +
      third.stackPointer.toNat) 2) = _
    rw [pointer, segment, base, Nat.zero_add, restored.memory, written.memory,
      Memory.loadLE_storeLE_disjoint (by omega), call.next, UInt32.ofNat_toNat]
  case segment => exact segment
  case cr0 => exact restored.cr0
  case gdtr => exact restored.gdtr
  case idtr => exact restored.idtr
  case register =>
    exact fun register apart =>
      (Function.update_of_ne apart _ _).trans (restored.register register apart)
  case stackPointer =>
    change third.stackWidth.take (third.stackWidth.merge (third.register .esp)
      (third.stackPointer + 2)) = _
    have two : (2 : UInt32).toNat = 2 := rfl
    rw [Width.take_merge, pointer]
    apply Cpu.take_of_le_mask
    rw [toNat_add_of_lt (by rw [two]; omega), two, mask]
    exact below
  case ports => exact restored.ports.trans ports
  case memory =>
    intro address outside
    change third.memory address = _
    rw [restored.memory, written.memory, Memory.storeLE_outside (by omega)]

end Resetpic

end Bootloader.Arch
