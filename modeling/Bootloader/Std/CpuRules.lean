import Bootloader.Std.Cpu
import Mathlib.Tactic.IntervalCases

/-!
# Rules for running i386 code

`Leads.cons` runs one instruction in code of the size it was assembled for, and
`Leads.reread` one in code of the other size; `RunsTo.cons` goes from block to block.
`pushes_eq` and `pops_eq` are what a row of stack operations leaves, with `pushWords` for the
memory below the old top.
-/

namespace Bootloader.Std

namespace Memory

/-- Memory after operands of some width have been stored one below the other. -/
def pushWords (memory : Memory) (top width : Nat) : List UInt32 → Memory
  | [] => memory
  | value :: rest => pushWords (memory.storeLE (top - width) width value.toNat) (top - width) width rest

variable {memory : Memory} {top width other : Nat} {values : List UInt32}

theorem pushWords_outside (room : width * values.length ≤ top)
    (outside : other < top - width * values.length ∨ top ≤ other) :
    memory.pushWords top width values other = memory other := by
  induction values generalizing memory top with
  | nil => rfl
  | cons value rest inductionHypothesis =>
      rw [List.length_cons, Nat.mul_succ] at room outside
      rw [pushWords, inductionHypothesis (by omega) (by omega), storeLE_outside (by omega)]

/-- The operand that was stored after `index` others. -/
theorem loadLE_pushWords {index : Nat} (stored : index < values.length)
    (room : width * values.length ≤ top) :
    (memory.pushWords top width values).loadLE (top - width * (index + 1)) width =
      values[index].toNat % 256 ^ width := by
  induction values generalizing memory top index with
  | nil => exact absurd stored (Nat.not_lt_zero _)
  | cons value rest inductionHypothesis =>
      rw [List.length_cons, Nat.mul_succ] at room
      rw [pushWords]
      cases index with
      | zero =>
          rw [Nat.zero_add, Nat.mul_one, List.getElem_cons_zero, ← loadLE_storeLE memory (top - width)]
          apply loadLE_congr
          intro place within
          exact pushWords_outside (by omega) (by omega)
      | succ index =>
          rw [List.length_cons] at stored
          have less : index < rest.length := Nat.lt_of_succ_lt_succ stored
          have place : top - width * (index + 1 + 1) = top - width - width * (index + 1) := by
            rw [Nat.mul_succ width (index + 1), Nat.sub_sub, Nat.add_comm width]
          rw [List.getElem_cons_succ, place]
          exact inductionHypothesis less (by omega)

/-- An operand of sixteen bits that was stored after `index` others. -/
theorem load16_pushWords {index : Nat} (stored : index < values.length)
    (room : 2 * values.length ≤ top) :
    (memory.pushWords top 2 values).load16 (top - 2 * (index + 1)) = values[index].toUInt16 := by
  rw [load16, loadLE_pushWords stored room, ← UInt16.toNat_inj, UInt16.toNat_ofNat',
    UInt32.toNat_toUInt16]
  omega

/-- Operands go on below the ones before. -/
theorem pushWords_append {more : List UInt32} :
    memory.pushWords top width (values ++ more) =
      (memory.pushWords top width values).pushWords (top - width * values.length) width more := by
  induction values generalizing memory top with
  | nil => rfl
  | cons value rest inductionHypothesis =>
      rw [List.cons_append, pushWords, pushWords, inductionHypothesis, List.length_cons,
        Nat.mul_succ, Nat.add_comm (width * rest.length), Nat.sub_sub]

end Memory

namespace Cpu

variable {cpu : Cpu} {width : Width} {value : UInt32}

theorem toNat_sub_ofNat {top : UInt32} {count : Nat} (room : count ≤ top.toNat) :
    (top - UInt32.ofNat count).toNat = top.toNat - count := by
  have bound := top.toNat_lt
  have small : (UInt32.ofNat count).toNat = count := by
    rw [UInt32.toNat_ofNat', Nat.mod_eq_of_lt (by omega)]
  rw [UInt32.toNat_sub_of_le _ _ (by rw [UInt32.le_iff_toNat_le, small]; exact room), small]

/-- An operand that is no larger than one of some width fits that width. -/
theorem take_of_le {less : UInt32} (below : less.toNat ≤ (width.take value).toNat) :
    width.take less = less := by
  cases width with
  | long => rfl
  | word =>
      rw [Width.toNat_take_word] at below
      rw [← UInt32.toNat_inj, Width.toNat_take_word]
      omega

/-- The stack has room for some bytes, and its top lies within the segment. -/
structure Room (cpu : Cpu) (count : Nat) : Prop where
  above : count ≤ cpu.stackPointer.toNat
  inside : cpu.stackPointer.toNat ≤ (cpu.segment .ss).limit + 1
  exists' : (cpu.segment .ss).base + cpu.stackPointer.toNat ≤ 2 ^ 32

/-- The address of the top of the stack. -/
def stackTop (cpu : Cpu) : Nat := (cpu.segment .ss).base + cpu.stackPointer.toNat

/-- The processor after operands have been put on the stack. -/
def pushed (width : Width) (values : List UInt32) (cpu : Cpu) : Cpu :=
  (cpu.setStackPointer (cpu.stackPointer - UInt32.ofNat (width.bytes * values.length))).setMemory
    (cpu.memory.pushWords cpu.stackTop width.bytes values)

theorem stackPointer_setStackPointer (top : UInt32) :
    (cpu.setStackPointer top).stackPointer = cpu.stackWidth.take top := by
  simp only [setStackPointer, set, setRegister, setRegisters, stackPointer, stackWidth, Function.update_self,
    Width.take_merge]

theorem stackPointer_holdSegment {register : SegmentRegister} {segment : Segment}
    (data : register ≠ .ss) : (cpu.holdSegment register segment).stackPointer = cpu.stackPointer := by
  simp only [holdSegment, stackPointer, stackWidth, Function.update_of_ne (Ne.symm data)]

theorem setStackPointer_stackPointer : cpu.setStackPointer cpu.stackPointer = cpu := by
  simp only [setStackPointer, set, setRegister, setRegisters, stackPointer, Width.merge_take, Width.merge_self,
    Function.update_eq_self]

/-- One operand on the stack. -/
theorem push_eq (room : cpu.Room width.bytes) :
    cpu.push width value = some (cpu.pushed width [value]) := by
  have size : width.bytes ≤ 4 := by cases width <;> decide
  have top := toNat_sub_ofNat room.above
  have same : cpu.stackWidth.take (cpu.stackPointer - UInt32.ofNat width.bytes) =
      cpu.stackPointer - UInt32.ofNat width.bytes :=
    take_of_le (by rw [top]; exact Nat.sub_le _ _)
  have above := room.above
  have inside := room.inside
  have exists' := room.exists'
  have place : (cpu.segment .ss).base + (cpu.stackPointer.toNat - width.bytes) =
      cpu.stackTop - width.bytes := by
    rw [stackTop]
    omega
  rw [push, same, Segment.linear_of_le (by omega) (by omega), top, place, Option.map_some]
  simp only [pushed, Memory.pushWords, List.length_singleton, Nat.mul_one]

/-- The stack pointer has gone down. -/
theorem stackPointer_pushed {values : List UInt32} (room : width.bytes * values.length ≤
    cpu.stackPointer.toNat) :
    (cpu.pushed width values).stackPointer =
      cpu.stackPointer - UInt32.ofNat (width.bytes * values.length) := by
  change (cpu.setStackPointer _).stackPointer = _
  rw [stackPointer_setStackPointer]
  exact take_of_le (by rw [toNat_sub_ofNat room]; exact Nat.sub_le _ _)

/-- Operands that are put on the stack one after the other. -/
theorem pushes_eq {values : List UInt32} (room : cpu.Room (width.bytes * values.length)) :
    cpu.pushes width values = some (cpu.pushed width values) := by
  induction values generalizing cpu with
  | nil =>
      have same : cpu.pushed width [] = cpu := by
        change (cpu.setStackPointer (cpu.stackPointer - 0)).setMemory cpu.memory = cpu
        rw [UInt32.sub_zero, setStackPointer_stackPointer]
        rfl
      rw [pushes, same]
  | cons value rest inductionHypothesis =>
      obtain ⟨above, inside, exists'⟩ := room
      rw [List.length_cons, Nat.mul_succ] at above
      have one : cpu.Room width.bytes := ⟨by omega, inside, exists'⟩
      have top := toNat_sub_ofNat one.above
      have pointer : (cpu.pushed width [value]).stackPointer =
          cpu.stackPointer - UInt32.ofNat width.bytes := by
        rw [stackPointer_pushed (by rw [List.length_singleton, Nat.mul_one]; exact one.above),
          List.length_singleton, Nat.mul_one]
      have stack : (cpu.pushed width [value]).segment .ss = cpu.segment .ss := rfl
      have left : (cpu.pushed width [value]).Room (width.bytes * rest.length) :=
        ⟨by rw [pointer, top]; omega, by rw [pointer, top, stack]; omega,
          by rw [pointer, top, stack]; omega⟩
      have down : cpu.stackPointer - UInt32.ofNat width.bytes -
          UInt32.ofNat (width.bytes * rest.length) =
            cpu.stackPointer - UInt32.ofNat (width.bytes * (rest.length + 1)) := by
        rw [← UInt32.toNat_inj, toNat_sub_ofNat (by rw [top]; omega), top,
          toNat_sub_ofNat (by rw [Nat.mul_succ]; exact above), Nat.mul_succ]
        omega
      have below : (cpu.pushed width [value]).stackTop = cpu.stackTop - width.bytes := by
        rw [stackTop, stackTop, pointer, top, stack]
        omega
      have whole : (cpu.pushed width [value]).pushed width rest = cpu.pushed width (value :: rest) := by
        rw [pushed, pointer, below, down]
        simp only [pushed, setStackPointer, setMemory, set, setRegister, setRegisters, stackWidth,
          Function.update_self, Function.update_idem, Width.merge_merge, Memory.pushWords,
          List.length_cons]
      rw [pushes, push_eq one, Option.bind_eq_bind, Option.bind_some, inductionHypothesis left, whole]

/-- A number within a width is an operand of it. -/
theorem take_of_le_mask {less : UInt32} (below : less.toNat ≤ width.mask.toNat) :
    width.take less = less :=
  take_of_le (by rwa [show width.take width.mask = width.mask by cases width <;> rfl])

/-- The stack holds some bytes, all of them within the segment. -/
structure Filled (cpu : Cpu) (count : Nat) : Prop where
  below : cpu.stackPointer.toNat + count ≤ cpu.stackWidth.mask.toNat
  inside : cpu.stackPointer.toNat + count ≤ (cpu.segment .ss).limit + 1
  exists' : (cpu.segment .ss).base + cpu.stackPointer.toNat + count ≤ 2 ^ 32

/-- Registers that operands in memory are loaded into, one after the other; the one for the
stack pointer is passed over. -/
def loadRegisters (width : Width) (memory : Memory) (address : Nat) :
    List Register → (Register → UInt32) → Register → UInt32
  | [], register => register
  | target :: rest, register =>
      loadRegisters width memory (address + width.bytes) rest
        (if target = .esp then register
          else Function.update register target
            (width.merge (register target) (UInt32.ofNat (memory.loadLE address width.bytes))))

/-- The processor after operands have been taken from the stack. -/
def popped (width : Width) (targets : List Register) (cpu : Cpu) : Cpu :=
  cpu.setRegisters (Function.update
    (loadRegisters width cpu.memory cpu.stackTop targets cpu.register) .esp
    (cpu.stackWidth.merge (cpu.register .esp)
      (cpu.stackPointer + UInt32.ofNat (width.bytes * targets.length))))

/-- What the stack pointer is does not matter to the other registers. -/
theorem loadRegisters_update_esp {memory : Memory} {address : Nat} {targets : List Register}
    {register : Register → UInt32} {first second : UInt32} :
    Function.update (loadRegisters width memory address targets
        (Function.update register .esp first)) .esp second =
      Function.update (loadRegisters width memory address targets register) .esp second := by
  induction targets generalizing register address with
  | nil => exact Function.update_idem _ _ _
  | cons target rest inductionHypothesis =>
      by_cases stack : target = .esp
      · simp only [loadRegisters, if_pos stack]
        exact inductionHypothesis
      · simp only [loadRegisters, if_neg stack, Function.update_of_ne stack]
        rw [Function.update_comm (Ne.symm stack)]
        exact inductionHypothesis

theorem stackPointer_receive {target : Register} :
    (cpu.receive width target value).stackPointer = cpu.stackPointer := by
  rw [receive]
  by_cases esp : target = .esp
  · rw [if_pos esp]
  · simp only [if_neg esp, stackPointer, stackWidth, set, setRegister, setRegisters,
      Function.update_of_ne (Ne.symm esp)]

theorem segment_receive {target : Register} :
    (cpu.receive width target value).segment = cpu.segment := by
  rw [receive]
  split <;> rfl

theorem memory_receive {target : Register} :
    (cpu.receive width target value).memory = cpu.memory := by
  rw [receive]
  split <;> rfl

/-- One operand from the stack. -/
theorem pop_eq (filled : cpu.Filled width.bytes) :
    cpu.pop width = some (UInt32.ofNat (cpu.memory.loadLE cpu.stackTop width.bytes),
      cpu.setStackPointer (cpu.stackPointer + UInt32.ofNat width.bytes)) := by
  rw [pop, Segment.linear_of_le filled.inside filled.exists', Option.map_some]
  rfl

/-- Operands that are taken from the stack one after the other. -/
theorem pops_eq {targets : List Register} (filled : cpu.Filled (width.bytes * targets.length)) :
    cpu.pops width targets = some (cpu.popped width targets) := by
  induction targets generalizing cpu with
  | nil =>
      have same : cpu.popped width [] = cpu := by
        change cpu.setRegisters (Function.update cpu.register .esp
          (cpu.stackWidth.merge (cpu.register .esp) (cpu.stackPointer + 0))) = cpu
        rw [UInt32.add_zero, stackPointer, Width.merge_take, Width.merge_self,
          Function.update_eq_self]
        rfl
      rw [pops, same]
  | cons target rest inductionHypothesis =>
      obtain ⟨below, inside, exists'⟩ := filled
      rw [List.length_cons, Nat.mul_succ] at below inside exists'
      have one : cpu.Filled width.bytes := ⟨by omega, by omega, by omega⟩
      have mask := cpu.stackWidth.mask.toNat_lt
      have top : (cpu.stackPointer + UInt32.ofNat width.bytes).toNat =
          cpu.stackPointer.toNat + width.bytes := toNat_offset (by omega)
      have up : cpu.stackPointer + UInt32.ofNat width.bytes +
          UInt32.ofNat (width.bytes * rest.length) =
            cpu.stackPointer + UInt32.ofNat (width.bytes * (rest.length + 1)) := by
        rw [UInt32.add_assoc, ← UInt32.ofNat_add, Nat.mul_succ, Nat.add_comm width.bytes]
      obtain ⟨next, named⟩ : ∃ next, (cpu.setStackPointer (cpu.stackPointer +
          UInt32.ofNat width.bytes)).receive width target
            (UInt32.ofNat (cpu.memory.loadLE cpu.stackTop width.bytes)) = next := ⟨_, rfl⟩
      have pointer : next.stackPointer = cpu.stackPointer + UInt32.ofNat width.bytes := by
        rw [← named, stackPointer_receive, stackPointer_setStackPointer,
          take_of_le_mask (by rw [top]; omega)]
      have stack : next.segment .ss = cpu.segment .ss := by rw [← named, segment_receive]; rfl
      have memory : next.memory = cpu.memory := by rw [← named, memory_receive]; rfl
      have stackMask : next.stackWidth = cpu.stackWidth := by rw [stackWidth, stackWidth, stack]
      have left : next.Filled (width.bytes * rest.length) :=
        ⟨by rw [pointer, top, stackMask]; omega, by rw [pointer, top, stack]; omega,
          by rw [pointer, top, stack]; omega⟩
      have above : next.stackTop = cpu.stackTop + width.bytes := by
        rw [stackTop, stackTop, pointer, top, stack]
        omega
      have whole : next.popped width rest = cpu.popped width (target :: rest) := by
        rw [popped, pointer, up, memory, above, ← named]
        by_cases esp : target = .esp
        · simp only [receive, if_pos esp, popped, loadRegisters, setStackPointer, set, setRegister, setRegisters,
            stackWidth, Function.update_self, Width.merge_merge, loadRegisters_update_esp,
            List.length_cons]
        · simp only [receive, if_neg esp, popped, loadRegisters, setStackPointer, set, setRegister, setRegisters,
            stackWidth, Function.update_self, Function.update_of_ne esp,
            Function.update_comm (Ne.symm esp), Width.merge_merge, loadRegisters_update_esp,
            List.length_cons]
      rw [pops, pop_eq one, Option.bind_eq_bind, Option.bind_some]
      change pops width rest (Cpu.receive width target _ _) = _
      rw [named, inductionHypothesis left, whole]

end Cpu

/-- A flag that has been cleared is clear. -/
theorem withFlag_clear {flag : Flag} {flags : UInt32} :
    withFlag flag false flags &&& flag.mask = 0 := by
  rw [withFlag, if_neg Bool.false_ne_true, UInt32.and_assoc, UInt32.not_and_self, UInt32.and_zero]

/-- A flag that has been set is set. -/
theorem withFlag_set {flag : Flag} {flags : UInt32} :
    withFlag flag true flags &&& flag.mask = flag.mask := by
  rw [withFlag, if_pos rfl]
  apply Width.eq_of_bits
  intro place
  simp only [UInt32.toBitVec_and, UInt32.toBitVec_or, BitVec.getLsbD_and, BitVec.getLsbD_or]
  cases flag.mask.toBitVec.getLsbD place <;> simp

/-- Changing a flag does not change another one. -/
theorem withFlag_apart {flag other : Flag} {value : Bool} {flags : UInt32} (apart : flag ≠ other) :
    withFlag flag value flags &&& other.mask = flags &&& other.mask := by
  have disjoint : flag.mask &&& other.mask = 0 ∧ ~~~flag.mask &&& other.mask = other.mask := by
    cases flag <;> cases other <;> first | exact ⟨rfl, rfl⟩ | exact absurd rfl apart
  rw [withFlag]
  cases value with
  | false => rw [if_neg Bool.false_ne_true, UInt32.and_assoc, disjoint.2]
  | true =>
      rw [if_pos rfl]
      apply Width.eq_of_bits
      intro place
      have bit := congrArg (fun word : UInt32 => word.toBitVec.getLsbD place) disjoint.1
      simp only [UInt32.toBitVec_and, UInt32.toBitVec_or, BitVec.getLsbD_and, BitVec.getLsbD_or,
        UInt32.toBitVec_zero, BitVec.getLsbD_zero] at bit ⊢
      rw [Bool.and_or_distrib_right, bit, Bool.or_false]

section Control

variable {flag : Flag} {low : UInt8} {zero sign : Bool} {flags : UInt32}

/-- Whether a flag says how the processor goes on, and not what a result was like. -/
def Flag.control : Flag → Bool
  | .interrupt | .direction => true
  | _ => false

theorem withFlag_control {other : Flag} {value : Bool} (control : flag.control = true)
    (result : other.control = false) : withFlag other value flags &&& flag.mask = flags &&& flag.mask :=
  withFlag_apart (by
    rintro rfl
    rw [control] at result
    cases result)

theorem resultFlags_control (control : flag.control = true) :
    resultFlags low zero sign flags &&& flag.mask = flags &&& flag.mask := by
  rw [resultFlags, withFlag_control control rfl, withFlag_control control rfl,
    withFlag_control control rfl]

/-- Logic and arithmetic leave the control flags as they are. -/
theorem logicFlags_control (control : flag.control = true) :
    logicFlags low zero sign flags &&& flag.mask = flags &&& flag.mask := by
  rw [logicFlags, withFlag_control control rfl, withFlag_control control rfl,
    resultFlags_control control]

theorem addFlags_control {width : Width} {first second : UInt32} (control : flag.control = true) :
    addFlags width first second flags &&& flag.mask = flags &&& flag.mask := by
  rw [addFlags, withFlag_control control rfl, withFlag_control control rfl,
    withFlag_control control rfl, resultFlags_control control]

theorem shiftFlags_control {width : Width} {old result : UInt32} {count : Nat}
    (control : flag.control = true) :
    shiftFlags width old result count flags &&& flag.mask = flags &&& flag.mask := by
  rw [shiftFlags, withFlag_control control rfl, resultFlags_control control]

theorem compareFlags_control {first second : UInt8} (control : flag.control = true) :
    compareFlags first second flags &&& flag.mask = flags &&& flag.mask := by
  rw [compareFlags, withFlag_control control rfl, withFlag_control control rfl,
    withFlag_control control rfl, resultFlags_control control]

/-- A comparison with zero says whether the byte is zero. -/
theorem compareFlags_zero {byte : UInt8} :
    compareFlags byte 0 flags &&& Flag.zero.mask = if byte = 0 then Flag.zero.mask else 0 := by
  rw [compareFlags, withFlag_apart (by decide), withFlag_apart (by decide),
    withFlag_apart (by decide), resultFlags, withFlag_apart (by decide), UInt8.sub_zero]
  by_cases zero : byte = 0
  · rw [if_pos zero, zero]
    exact withFlag_set
  · rw [if_neg zero, beq_false_of_ne zero]
    exact withFlag_clear

end Control

/-- A word register after its operand has been changed is the operand. -/
theorem toUInt16_merge_word {old new : UInt32} :
    (Width.word.merge old new).toUInt16 = new.toUInt16 := by
  rw [← Width.toUInt16_take_word, Width.take_merge, Width.toUInt16_take_word]

/-- A byte of a register after it has been changed. -/
theorem part_merge {byte : ByteRegister} {old : UInt32} {new : UInt8} :
    byte.part (byte.merge old new) = new := by
  have low : ByteRegister.al.part (ByteRegister.al.merge old new) = new := by
    apply UInt8.toBitVec_inj.mp
    apply BitVec.eq_of_getLsbD_eq
    intro place within
    simp only [ByteRegister.merge, ByteRegister.part, UInt32.toBitVec_or, UInt32.toBitVec_and,
      UInt8.toBitVec_toUInt32, UInt16.toBitVec_toUInt8, UInt32.toBitVec_toUInt16,
      UInt32.toBitVec_ofNat, BitVec.getLsbD_or, BitVec.getLsbD_and, BitVec.getLsbD_setWidth]
    interval_cases place <;> simp
  have high : ByteRegister.ah.part (ByteRegister.ah.merge old new) = new := by
    apply UInt8.toBitVec_inj.mp
    apply BitVec.eq_of_getLsbD_eq
    intro place within
    simp only [ByteRegister.merge, ByteRegister.part, UInt32.toBitVec_or, UInt32.toBitVec_and,
      UInt32.toBitVec_shiftLeft, UInt16.toBitVec_shiftRight, UInt8.toBitVec_toUInt32,
      UInt16.toBitVec_toUInt8, UInt32.toBitVec_toUInt16, UInt32.toBitVec_ofNat,
      UInt16.toBitVec_ofNat, BitVec.getLsbD_setWidth]
    interval_cases place <;> simp
  cases byte with
  | al | bl | dl => exact low
  | ah | bh | dh => exact high

/-- The other byte of a register that has two of them stays. -/
theorem part_merge_other {old : UInt32} {new : UInt8} :
    ByteRegister.al.part (ByteRegister.ah.merge old new) = ByteRegister.al.part old := by
  apply UInt8.toBitVec_inj.mp
  apply BitVec.eq_of_getLsbD_eq
  intro place within
  simp only [ByteRegister.merge, ByteRegister.part, UInt32.toBitVec_or, UInt32.toBitVec_and,
    UInt32.toBitVec_shiftLeft, UInt8.toBitVec_toUInt32, UInt16.toBitVec_toUInt8,
    UInt32.toBitVec_toUInt16, UInt32.toBitVec_ofNat, BitVec.getLsbD_setWidth]
  interval_cases place <;> simp

/-- The lowest bit is set through the lower half of a register. -/
theorem merge_word_or {old : UInt32} :
    Width.word.merge old (Width.word.take (old ||| 1)) = old ||| 1 := by
  have low : (1 : UInt32) &&& ~~~Width.mask .word = 0 := rfl
  rw [Width.merge_take, Width.merge]
  apply UInt32.toBitVec_inj.mp
  apply BitVec.eq_of_getLsbD_eq
  intro place within
  have bit := congrArg (fun word : UInt32 => word.toBitVec.getLsbD place) low
  simp only [UInt32.toBitVec_and, UInt32.toBitVec_or, UInt32.toBitVec_not, BitVec.getLsbD_and,
    BitVec.getLsbD_or, BitVec.getLsbD_not, UInt32.toBitVec_zero, BitVec.getLsbD_zero, within,
    decide_true, Bool.true_and] at bit ⊢
  generalize (UInt32.toBitVec 1).getLsbD place = one at bit ⊢
  generalize (Width.mask .word).toBitVec.getLsbD place = covered at bit ⊢
  cases covered <;> cases one <;> simp at bit ⊢

theorem Cpu.byte_setByte {cpu : Cpu} {byte : ByteRegister} {value : UInt8} :
    (cpu.setByte byte value).byte byte = value := by
  have changed : (cpu.setByte byte value).register byte.register =
      byte.merge (cpu.register byte.register) value := Function.update_self _ _ _
  change byte.part ((cpu.setByte byte value).register byte.register) = value
  rw [changed, part_merge]

/-- The lowest bit of a register is cleared through its lowest byte. -/
theorem merge_part_and {value : UInt32} :
    ByteRegister.al.merge value (ByteRegister.al.part value &&& ~~~0x01) = value &&& ~~~1 := by
  apply UInt32.toBitVec_inj.mp
  apply BitVec.eq_of_getLsbD_eq
  intro place within
  simp only [ByteRegister.merge, ByteRegister.part, UInt32.toBitVec_or, UInt32.toBitVec_and,
    UInt8.toBitVec_toUInt32, UInt8.toBitVec_and, UInt16.toBitVec_toUInt8,
    UInt32.toBitVec_toUInt16, UInt32.toBitVec_not, UInt8.toBitVec_not, UInt32.toBitVec_ofNat,
    UInt8.toBitVec_ofNat, BitVec.getLsbD_or, BitVec.getLsbD_and, BitVec.getLsbD_setWidth,
    BitVec.getLsbD_not]
  interval_cases place <;> simp

/-- The lowest bit is set again by an increment. -/
theorem and_not_one_add_one {value : UInt32} (odd : value &&& 1 = 1) :
    (value &&& ~~~1) + 1 = value := by
  have odd' : value.toBitVec &&& 1#32 = 1#32 := congrArg UInt32.toBitVec odd
  have apart : (value.toBitVec &&& ~~~1#32) &&& (value.toBitVec &&& 1#32) = 0#32 := by
    apply BitVec.eq_of_getLsbD_eq
    intro place within
    simp only [BitVec.getLsbD_and, BitVec.getLsbD_not]
    cases (1#32).getLsbD place <;> simp
  have sum := BitVec.add_eq_or_of_and_eq_zero _ _ apart
  rw [odd'] at sum
  apply UInt32.toBitVec_inj.mp
  rw [UInt32.toBitVec_add, UInt32.toBitVec_and]
  refine sum.trans ?_
  rw [← odd']
  apply BitVec.eq_of_getLsbD_eq
  intro place within
  simp only [BitVec.getLsbD_and, BitVec.getLsbD_not, BitVec.getLsbD_or, within]
  cases (1#32).getLsbD place <;> simp

/-- Loading words is unaffected by a copy that stays away from them. -/
theorem Memory.loadLE_copyUp_outside {memory : Memory} {target source count address width : Nat}
    (apart : address + width ≤ target ∨ target + count ≤ address) :
    (memory.copyUp target source count).loadLE address width = memory.loadLE address width := by
  apply loadLE_congr
  intro place within
  exact copyUp_outside (by omega)

namespace Cpu

variable {cpu : Cpu}

/-- In protected mode a segment comes from the table. -/
theorem setSegment_protected {target : SegmentRegister} {selector : UInt16} {loaded : Segment}
    (mode : cpu.protectedMode = true)
    (found : Segment.select cpu.memory cpu.gdtr target selector = some loaded) :
    cpu.setSegment target selector = some (cpu.holdSegment target loaded) := by
  rw [setSegment, if_pos mode, found, Option.map_some]

/-- In real mode only the beginning of a segment changes. -/
theorem setSegment_real {target : SegmentRegister} {selector : UInt16}
    (mode : cpu.protectedMode = false) :
    cpu.setSegment target selector =
      some (cpu.holdSegment target ((cpu.segment target).real selector)) := by
  rw [setSegment, if_neg (by rw [mode]; decide)]

end Cpu

namespace CodeBlock

variable {firmware : Firmware} {assembled : Width} {instruction : Instruction}
  {rest : List Instruction} {block : CodeBlock} {blocks : List CodeBlock} {cpu next : Cpu}
  {Post Middle : Cpu → Prop}

/-- Instructions run to their end, and what they leave has a property. -/
def Leads (firmware : Firmware) (assembled : Width) (instructions : List Instruction) (cpu : Cpu)
    (Post : Cpu → Prop) : Prop :=
  ∃ after, steps firmware assembled instructions cpu = some after ∧ Post after

theorem Leads.nil (holds : Post cpu) : Leads firmware assembled [] cpu Post := ⟨cpu, rfl, holds⟩

/-- One instruction, in code of the size it was assembled for. -/
theorem Leads.cons (same : cpu.codeWidth = assembled)
    (ran : instruction.execute firmware cpu = some next)
    (more : Leads firmware assembled rest next Post) :
    Leads firmware assembled (instruction :: rest) cpu Post := by
  obtain ⟨after, more, holds⟩ := more
  refine ⟨after, ?_, holds⟩
  rw [steps, Instruction.step, if_pos same, ran, Option.bind_eq_bind, Option.bind_some, more]

/-- One instruction, in code of the other size. -/
theorem Leads.reread {meaning : Instruction} (different : cpu.codeWidth ≠ assembled)
    (means : instruction.reread = some meaning) (ran : meaning.execute firmware cpu = some next)
    (more : Leads firmware assembled rest next Post) :
    Leads firmware assembled (instruction :: rest) cpu Post := by
  obtain ⟨after, more, holds⟩ := more
  refine ⟨after, ?_, holds⟩
  rw [steps, Instruction.step, if_neg different, means, Option.bind_eq_bind, Option.bind_eq_bind,
    Option.bind_some, ran, Option.bind_some, more]

/-- Instructions behind some that have run. -/
theorem steps_append {first second : List Instruction} {middle : Cpu}
    (ran : steps firmware assembled first cpu = some middle) :
    steps firmware assembled (first ++ second) cpu = steps firmware assembled second middle := by
  induction first generalizing cpu with
  | nil =>
      obtain rfl : cpu = middle := Option.some.inj ran
      rfl
  | cons instruction rest inductionHypothesis =>
      rw [steps, Option.bind_eq_bind, Option.bind_eq_some_iff] at ran
      obtain ⟨next, one, ran⟩ := ran
      rw [List.cons_append, steps, one, Option.bind_eq_bind, Option.bind_some,
        inductionHypothesis ran]

/-- Instructions in two parts. -/
theorem Leads.trans {first second : List Instruction}
    (leads : Leads firmware assembled first cpu Middle)
    (more : ∀ middle, Middle middle → Leads firmware assembled second middle Post) :
    Leads firmware assembled (first ++ second) cpu Post := by
  obtain ⟨middle, ran, holds⟩ := leads
  obtain ⟨after, ran', post⟩ := more middle holds
  exact ⟨after, (steps_append ran).trans ran', post⟩

/-- Blocks run to their end, and what they leave has a property. -/
def RunsTo (firmware : Firmware) (blocks : List CodeBlock) (cpu : Cpu) (Post : Cpu → Prop) : Prop :=
  ∃ after, runs firmware blocks cpu = some after ∧ Post after

theorem RunsTo.nil (holds : Post cpu) : RunsTo firmware [] cpu Post := ⟨cpu, rfl, holds⟩

/-- A block that is led to and still in place, and what comes behind it. -/
theorem RunsTo.cons (led : cpu.ip = block.start) (intact : block.intact cpu.memory = true)
    (leads : Leads firmware block.assembled block.instructions cpu Middle)
    (more : ∀ middle, Middle middle → RunsTo firmware blocks middle Post) :
    RunsTo firmware (block :: blocks) cpu Post := by
  obtain ⟨middle, ran, holds⟩ := leads
  obtain ⟨after, more, post⟩ := more middle holds
  refine ⟨after, ?_, post⟩
  rw [runs, run, if_pos ⟨led, intact⟩, ran, Option.bind_eq_bind, Option.bind_some, more]

end CodeBlock

namespace Instruction

variable {firmware : Firmware} {cpu : Cpu} {width : Width} {register : Register} {place : Place}
  {selector : UInt16} {loaded : Segment} {source target address : Nat}

theorem execute_load (found : cpu.address place width.bytes = some address) :
    (load width register place).execute firmware cpu =
      some (cpu.set width register (UInt32.ofNat (cpu.memory.loadLE address width.bytes))) := by
  change (cpu.read place width.bytes).map _ = _
  rw [Cpu.read, found, Option.map_some, Option.map_some]

/-- How a register is cleared. -/
theorem execute_xor_self :
    (xor width register register).execute firmware cpu =
      some ((cpu.set width register 0).setFlags (logicFlags 0 true false cpu.flags)) := by
  have zero : width.take (cpu.register register ^^^ cpu.register register) = 0 := by
    rw [UInt32.xor_self]
    cases width <;> rfl
  simp only [execute, zero]
  rw [show (0 : UInt32).toNat = 0 from rfl, Nat.zero_testBit]
  rfl

theorem execute_store (found : cpu.address place width.bytes = some address) :
    (store width place register).execute firmware cpu =
      some (cpu.setMemory (cpu.memory.storeLE address width.bytes
        (cpu.register register).toNat)) := by
  change cpu.write place width.bytes _ = _
  rw [Cpu.write, found, Option.map_some]

theorem execute_storeByte {byte : ByteRegister} (found : cpu.address place 1 = some address) :
    (storeByte place byte).execute firmware cpu =
      some (cpu.setMemory (cpu.memory.storeLE address 1 (cpu.byte byte).toNat)) := by
  change cpu.write place 1 _ = _
  rw [Cpu.write, found, Option.map_some]

/-- The table register that six bytes stand for. -/
theorem tableRegister_eq (found : cpu.address place 6 = some address) :
    tableRegister width place cpu = some
      { limit := UInt16.ofNat (cpu.memory.loadLE address 2)
        base := UInt32.ofNat
          (cpu.memory.loadLE (address + 2) (if width = .word then 3 else 4)) } := by
  rw [tableRegister, found, Option.map_some]

/-- The six bytes of a table register. -/
theorem storeTable_eq {table : TableRegister} (found : cpu.address place 6 = some address) :
    storeTable place table cpu =
      some (cpu.setMemory ((cpu.memory.storeLE address 2 table.limit.toNat).storeLE (address + 2) 4
        table.base.toNat)) := by
  rw [storeTable, found, Option.map_some]

theorem execute_lgdt {table : TableRegister} (found : tableRegister width place cpu = some table) :
    (lgdt width place).execute firmware cpu = some (cpu.setGdtr table) := by
  change (tableRegister width place cpu).map _ = _
  rw [found, Option.map_some]

theorem execute_lidt {table : TableRegister} (found : tableRegister width place cpu = some table) :
    (lidt width place).execute firmware cpu = some (cpu.setIdtr table) := by
  change (tableRegister width place cpu).map _ = _
  rw [found, Option.map_some]

/-- A jump to another code segment. -/
theorem execute_jumpFar {offset : UInt32} {next : Cpu}
    (loaded : cpu.setSegment .cs selector = some next) :
    (jumpFar width selector offset).execute firmware cpu = some (next.setIp (width.take offset)) := by
  change (cpu.setSegment .cs selector).map _ = _
  rw [loaded, Option.map_some]

theorem execute_call {offset back : UInt32} (room : cpu.Room width.bytes) :
    (call width offset back).execute firmware cpu =
      some ((cpu.pushed width [back]).setIp offset) := by
  change (cpu.push width back).map _ = _
  rw [Cpu.push_eq room, Option.map_some]

theorem execute_ret (filled : cpu.Filled width.bytes) :
    (ret width).execute firmware cpu =
      some ((cpu.setStackPointer (cpu.stackPointer + UInt32.ofNat width.bytes)).setIp
        (UInt32.ofNat (cpu.memory.loadLE cpu.stackTop width.bytes))) := by
  change (cpu.pop width).map _ = _
  rw [Cpu.pop_eq filled, Option.map_some]

theorem execute_pop (filled : cpu.Filled width.bytes) :
    (pop width register).execute firmware cpu =
      some ((cpu.setStackPointer (cpu.stackPointer + UInt32.ofNat width.bytes)).set width register
        (UInt32.ofNat (cpu.memory.loadLE cpu.stackTop width.bytes))) := by
  change (cpu.pop width).map _ = _
  rw [Cpu.pop_eq filled, Option.map_some]

/-- A segment register from the stack in real mode. -/
theorem execute_popSegment {register : SegmentRegister} (filled : cpu.Filled width.bytes)
    (mode : cpu.protectedMode = false) :
    (popSegment width register).execute firmware cpu =
      some ((cpu.setStackPointer (cpu.stackPointer + UInt32.ofNat width.bytes)).holdSegment register
        ((cpu.segment register).real
          (UInt32.ofNat (cpu.memory.loadLE cpu.stackTop width.bytes)).toUInt16)) := by
  change cpu.pop width >>= _ = _
  rw [Cpu.pop_eq filled, Option.bind_eq_bind, Option.bind_some]
  exact Cpu.setSegment_real mode

/-- An interrupt in real mode, with its number in memory. -/
theorem execute_int (mode : cpu.protectedMode = false) (found : cpu.address place 1 = some address) :
    (int place).execute firmware cpu =
      some (firmware (UInt32.ofNat (cpu.memory.loadLE address 1)).toUInt8 cpu) := by
  change (if cpu.protectedMode then _ else (cpu.read place 1).map _) = _
  rw [if_neg (by rw [mode]; decide), Cpu.read, found, Option.map_some, Option.map_some]

/-- What is the same before and after an instruction that only moves the stack pointer and
changes registers. -/
structure Framed (before after : Cpu) : Prop where
  flags : after.flags = before.flags
  cr0 : after.cr0 = before.cr0
  gdtr : after.gdtr = before.gdtr
  idtr : after.idtr = before.idtr
  memory : after.memory = before.memory
  ports : after.ports = before.ports

theorem Framed.trans {before middle after : Cpu} (first : Framed before middle)
    (second : Framed middle after) : Framed before after where
  flags := second.flags.trans first.flags
  cr0 := second.cr0.trans first.cr0
  gdtr := second.gdtr.trans first.gdtr
  idtr := second.idtr.trans first.idtr
  memory := second.memory.trans first.memory
  ports := second.ports.trans first.ports

/-- What taking a segment register of sixteen bits from the stack leaves in real mode. -/
structure SegmentPopped (register : SegmentRegister) (before after : Cpu) : Prop
    extends Framed before after where
  stackPointer : after.stackPointer = before.stackPointer + 2
  loaded : after.segment register =
    (before.segment register).real (before.memory.load16 before.stackTop)
  others : ∀ other, other ≠ register → after.segment other = before.segment other
  register : ∀ other, other ≠ .esp → after.register other = before.register other

theorem toUInt16_loadLE {memory : Memory} :
    (UInt32.ofNat (memory.loadLE address 2)).toUInt16 = memory.load16 address := by
  rw [← UInt16.toNat_inj, UInt32.toNat_toUInt16, UInt32.toNat_ofNat', Memory.load16,
    UInt16.toNat_ofNat']
  omega

/-- What taking the general registers from the stack leaves, all of them with sixteen bits. -/
structure WordsPopped (before after : Cpu) : Prop extends Framed before after where
  stackPointer : after.stackPointer = before.stackPointer + 16
  segment : after.segment = before.segment
  edi : (after.register .edi).toUInt16 = before.memory.load16 before.stackTop
  esi : (after.register .esi).toUInt16 = before.memory.load16 (before.stackTop + 2)
  ebp : (after.register .ebp).toUInt16 = before.memory.load16 (before.stackTop + 4)
  ebx : (after.register .ebx).toUInt16 = before.memory.load16 (before.stackTop + 8)
  edx : (after.register .edx).toUInt16 = before.memory.load16 (before.stackTop + 10)
  ecx : (after.register .ecx).toUInt16 = before.memory.load16 (before.stackTop + 12)
  eax : (after.register .eax).toUInt16 = before.memory.load16 (before.stackTop + 14)

theorem popa_words (filled : cpu.Filled 16) :
    ∃ after, (popa .word).execute firmware cpu = some after ∧ WordsPopped cpu after := by
  have below := filled.below
  have mask := cpu.stackWidth.mask.toNat_lt
  have up : (cpu.stackPointer + 16).toNat = cpu.stackPointer.toNat + 16 :=
    @toNat_offset _ 16 (by omega)
  have loaded : ∀ old place, (Width.word.merge old
      (UInt32.ofNat (cpu.memory.loadLE place 2))).toUInt16 = cpu.memory.load16 place := by
    intro old place
    rw [toUInt16_merge_word, toUInt16_loadLE]
  refine ⟨_, Cpu.pops_eq ⟨filled.below, filled.inside, filled.exists'⟩, ?_⟩
  constructor
  case toFramed => exact ⟨rfl, rfl, rfl, rfl, rfl, rfl⟩
  case stackPointer =>
    change cpu.stackWidth.take (cpu.stackWidth.merge _ (cpu.stackPointer + 16)) = _
    rw [Width.take_merge]
    exact Cpu.take_of_le_mask (by rw [← up] at below; exact below)
  case segment => rfl
  case edi => exact loaded _ _
  case esi => exact loaded _ _
  case ebp => exact loaded _ _
  case ebx => exact loaded _ _
  case edx => exact loaded _ _
  case ecx => exact loaded _ _
  case eax => exact loaded _ _

theorem popSegment_real {register : SegmentRegister} (filled : cpu.Filled 2)
    (mode : cpu.protectedMode = false) (data : register ≠ .ss) :
    ∃ after, (popSegment .word register).execute firmware cpu = some after ∧
      SegmentPopped register cpu after := by
  refine ⟨_, execute_popSegment ⟨filled.below, filled.inside, filled.exists'⟩ mode, ?_⟩
  have below := filled.below
  have mask := cpu.stackWidth.mask.toNat_lt
  have two : (cpu.stackPointer + 2).toNat = cpu.stackPointer.toNat + 2 :=
    @toNat_offset _ 2 (by omega)
  constructor
  case toFramed => exact ⟨rfl, rfl, rfl, rfl, rfl, rfl⟩
  case stackPointer =>
    rw [Cpu.stackPointer_holdSegment data, Cpu.stackPointer_setStackPointer]
    exact Cpu.take_of_le_mask (by rw [← two] at below; exact below)
  case loaded =>
    rw [← toUInt16_loadLE]
    exact Function.update_self _ _ _
  case others => exact fun other apart => Function.update_of_ne apart _ _
  case register => exact fun other apart => Function.update_of_ne apart _ _

/-- A copy upwards between two segments. -/
theorem copyBytes_eq (up : cpu.flags &&& Flag.direction.mask = 0)
    (from' : (cpu.segment .ds).linear (cpu.register .esi) (cpu.register .ecx).toNat = some source)
    (onto : (cpu.segment .es).linear (cpu.register .edi) (cpu.register .ecx).toNat = some target) :
    copyBytes cpu = some
      ((((cpu.setRegister .esi (cpu.register .esi + cpu.register .ecx)).setRegister
        .edi (cpu.register .edi + cpu.register .ecx)).setRegister .ecx 0).setMemory
          (cpu.memory.copyUp target source (cpu.register .ecx).toNat)) := by
  simp only [copyBytes, if_pos up, from', onto, Option.bind_eq_bind, Option.bind_some,
    Option.map_some]

theorem loadString_eq (up : cpu.flags &&& Flag.direction.mask = 0)
    (from' : (cpu.segment .ds).linear (cpu.register .esi) 4 = some source) :
    loadString cpu = some ((cpu.setRegister .eax
      (UInt32.ofNat (cpu.memory.loadLE source 4))).setRegister .esi (cpu.register .esi + 4)) := by
  rw [loadString, if_pos up, from', Option.map_some]

end Instruction

end Bootloader.Std
