import Bootloader.Arch.Int32Down
import Bootloader.Arch.Int32Vectors

/-!
# The interrupt itself

In real mode `int32` gives the controllers the vectors of the BIOS, loads the registers of
the caller, raises the interrupt and stores the registers that it leaves.
-/

namespace Bootloader.Arch

open Bootloader.Std CodeBlock

variable {firmware : Firmware} {image : Int32Image} {cpu before : Cpu} {number : UInt8}
  {regs : UInt32}

/-- The table of interrupts in real mode. -/
def lowInterrupts : TableRegister where
  limit := 0x03ff
  base := 0

/-- What stays as long as `int32` is in real mode. -/
structure RealMode (image : Int32Image) (cpu : Cpu) (number : UInt8) (regs : UInt32)
    (now : Cpu) : Prop where
  code : now.segment .cs = lowSegment 0
  stack : now.segment .ss = lowSegment 0
  cr0 : now.cr0 = cpu.cr0 &&& ~~~1
  gdtr : now.gdtr = lowTable image
  underway : Underway image cpu number regs now.memory

/-- The 16-bit stack stays away from what must be kept. -/
theorem kept_of_window (call : Int32Call image cpu number regs) {address : Nat}
    (kept : Kept image cpu address) : address < windowLow ∨ int32Base ≤ address := by
  have image' := call.window_image
  have frame := call.window_frame
  have size : image.size = image.code.length + 68 := rfl
  have gdt16Base : image.gdt16Base = image.code.length + 22 := rfl
  rw [Apart] at image' frame
  rcases kept with ⟨above, _⟩ | ⟨_, _⟩ | ⟨_, _⟩ <;> omega

/-- Writing to the 16-bit stack keeps what is underway. -/
theorem Underway.stack {memory other : Memory} (call : Int32Call image cpu number regs)
    (underway : Underway image cpu number regs memory)
    (same : ∀ address, address < windowLow ∨ int32Base ≤ address →
      other address = memory address) : Underway image cpu number regs other :=
  underway.keep call.frame_room.1 fun address kept => same address (kept_of_window call kept)

/-- Real mode with a stack of 64 KB at the beginning of memory. -/
structure LowStack (now : Cpu) (top : Nat) : Prop where
  code : now.segment .cs = lowSegment 0
  stack : now.segment .ss = lowSegment 0
  real : now.protectedMode = false
  pointer : now.stackPointer = UInt32.ofNat top

namespace LowStack

variable {now after : Cpu} {top count : Nat}

theorem narrow (low : LowStack now top) : now.codeWidth = .word :=
  codeWidth_low low.code

theorem toNat_pointer (low : LowStack now top) (small : top ≤ 0xffff) :
    now.stackPointer.toNat = top := by
  rw [low.pointer, UInt32.toNat_ofNat', Nat.mod_eq_of_lt (by omega)]

/-- The register itself may have anything in its upper half. -/
theorem toUInt16_esp (low : LowStack now top) :
    (now.register .esp).toUInt16 = UInt16.ofNat top := by
  have pointer := low.pointer
  rw [Cpu.stackPointer, Cpu.stackWidth, low.stack] at pointer
  rw [← Width.toUInt16_take_word, ← UInt32.toUInt16_ofNat']
  exact congrArg UInt32.toUInt16 pointer

theorem stackTop (low : LowStack now top) (small : top ≤ 0xffff) : now.stackTop = top := by
  rw [Cpu.stackTop, low.toNat_pointer small, low.stack]
  exact Nat.zero_add _

theorem filled (low : LowStack now top) (inside : top + count ≤ 0xffff) : now.Filled count := by
  have number := low.toNat_pointer (by omega)
  have mask : now.stackWidth.mask.toNat = 0xffff := by
    rw [stackWidth_low low.stack]
    rfl
  have limit : (now.segment .ss).limit = 0xfffff := by
    rw [low.stack]
    rfl
  have base : (now.segment .ss).base = 0 := by
    rw [low.stack]
    rfl
  exact ⟨by omega, by omega, by omega⟩

theorem room (low : LowStack now top) (small : top ≤ 0xffff) (above : count ≤ top) :
    now.Room count := by
  have number := low.toNat_pointer small
  have limit : (now.segment .ss).limit = 0xfffff := by
    rw [low.stack]
    rfl
  have base : (now.segment .ss).base = 0 := by
    rw [low.stack]
    rfl
  exact ⟨by omega, by omega, by omega⟩

end LowStack

/-- The table of interrupts at `idt16_ptr`, of whose base the processor takes three bytes. -/
theorem Underway.lowInterrupts {memory : Memory}
    (underway : Underway image cpu number regs memory) :
    TableRegister.mk (UInt16.ofNat (memory.loadLE (int32Base + image.idt16Ptr) 2))
      (UInt32.ofNat (memory.loadLE (int32Base + image.idt16Ptr + 2) 3)) = lowInterrupts := by
  obtain ⟨low, high⟩ := Memory.holds_append.mp underway.idt16
  have limit : memory.loadLE (int32Base + image.idt16Ptr) 2 = 0x3ff := by
    have first : memory (int32Base + image.idt16Ptr) = 0xff := low.byte (by decide : 0 < 2)
    have second : memory (int32Base + image.idt16Ptr + 1) = 0x03 := low.byte (by decide : 1 < 2)
    rw [Memory.loadLE_two, first, second]
    rfl
  have base : memory.loadLE (int32Base + image.idt16Ptr + 2) 3 = 0 := by
    have first : memory (int32Base + image.idt16Ptr + 2) = 0 := high.byte (by decide : 0 < 4)
    have second : memory (int32Base + image.idt16Ptr + 2 + 1) = 0 := high.byte (by decide : 1 < 4)
    have third : memory (int32Base + image.idt16Ptr + 2 + 2) = 0 := high.byte (by decide : 2 < 4)
    rw [Memory.loadLE_three, first, second, third]
    rfl
  rw [limit, base]
  rfl

/-- The segments of the variables and of the stack are those of real mode. -/
structure SegmentsLowered (before now : Cpu) : Prop where
  low : LowStack now stack16
  data : now.segment .ds = lowSegment 0
  cr0 : now.cr0 = before.cr0
  gdtr : now.gdtr = before.gdtr
  ports : now.ports = before.ports
  memory : now.memory = before.memory

theorem segmentsLowered_leads {prepared : Cpu} {rest : List Instruction} {Post : Cpu → Prop}
    (lowered : Lowered image prepared before)
    (esp : before.register .esp = UInt32.ofNat stack16)
    (more : ∀ now, SegmentsLowered before now → Leads firmware .word rest now Post) :
    Leads firmware .word
      (.xor .word .eax .eax :: .loadSegment .ds .eax :: .loadSegment .ss .eax :: rest)
      before Post := by
  have narrow := codeWidth_low lowered.code
  have mode : before.protectedMode = false := by
    rw [Cpu.protectedMode, lowered.cr0, UInt32.and_assoc, UInt32.not_and_self, UInt32.and_zero]
    rfl
  have real : ∀ register, register ≠ .cs → (before.segment register).real
      (Width.word.merge (before.register .eax) 0).toUInt16 = lowSegment 0 := by
    intro register data
    rw [toUInt16_merge_word, lowered.data register data]
    rfl
  refine Leads.cons narrow Instruction.execute_xor_self ?_
  refine Leads.cons narrow (Cpu.setSegment_real mode) ?_
  refine Leads.cons narrow (Cpu.setSegment_real mode) (more _ ?_)
  constructor
  case low =>
    constructor
    case code => exact lowered.code
    case stack => exact real .ss (by decide)
    case real => exact mode
    case pointer =>
      change ((before.segment .ss).real (Width.word.merge (before.register .eax)
        0).toUInt16).width.take (before.register .esp) = _
      rw [esp, real .ss (by decide)]
      rfl
  case data => exact real .ds (by decide)
  case cr0 => rfl
  case gdtr => rfl
  case ports => rfl
  case memory => rfl

/-- What `rMode16Block` leaves: the first call of `resetpic`. -/
structure VectorsCalled (image : Int32Image) (before after : Cpu) : Prop where
  ip : after.ip = Int32Image.rebase image.resetpic
  code : after.segment .cs = before.segment .cs
  stack : after.segment .ss = lowSegment 0
  cr0 : after.cr0 = before.cr0
  gdtr : after.gdtr = before.gdtr
  idtr : after.idtr = lowInterrupts
  ports : after.ports = before.ports
  vectors : after.byte .bh = 8 ∧ after.byte .bl = 0x70
  stackPointer : after.stackPointer = UInt32.ofNat (stack16 - 2)
  memory : after.memory =
    before.memory.storeLE (stack16 - 2) 2 (Int32Image.rebase image.vectorsSet).toNat

theorem rMode16Block_leads {prepared : Cpu} (made : Prepared image cpu number regs prepared)
    (lowered : Lowered image prepared before) :
    Leads firmware .word (rMode16Block image).instructions before (VectorsCalled image before) := by
  refine segmentsLowered_leads lowered (lowered.esp.trans made.esp) fun now reached => ?_
  have low := reached.low
  have found : now.address (Int32Image.variable' .word image.idt16Ptr) 6 =
      some (int32Base + image.idt16Ptr) := by
    change (now.segment .ds).linear (Width.word.take (0 + Int32Image.rebase image.idt16Ptr)) 6 = _
    rw [reached.data]
    exact linear_rebase .word rfl (by decide) (Nat.add_le_add_left (by decide : 16 + 6 ≤ 68) _)
      (by decide)
  have room : now.Room 2 := low.room (by decide) (by decide)
  refine Leads.cons low.narrow (Instruction.execute_lidt (Instruction.tableRegister_eq found)) ?_
  refine Leads.cons low.narrow rfl ?_
  refine Leads.cons low.narrow
    (Instruction.execute_call ⟨room.above, room.inside, room.exists'⟩) (Leads.nil ?_)
  constructor
  case ip => rfl
  case code => rw [lowered.code]; exact low.code
  case stack => exact low.stack
  case cr0 => exact reached.cr0
  case gdtr => exact reached.gdtr
  case idtr =>
    have underway := made.underway
    rw [← lowered.memory, ← reached.memory] at underway
    exact underway.lowInterrupts
  case ports => exact reached.ports
  case vectors =>
    change (ByteRegister.bh.part (Width.word.merge (now.register .ebx) 0x0870) = 8) ∧
      ByteRegister.bl.part (Width.word.merge (now.register .ebx) 0x0870) = 0x70
    rw [ByteRegister.part, ByteRegister.part, toUInt16_merge_word]
    exact ⟨rfl, rfl⟩
  case stackPointer =>
    change now.stackWidth.take (now.stackWidth.merge (now.register .esp)
      (now.stackPointer - 2)) = _
    rw [Width.take_merge, low.pointer, stackWidth_low low.stack]
    rfl
  case memory =>
    change now.memory.storeLE (now.stackTop - 2) 2 _ = _
    rw [low.stackTop (by decide), reached.memory]

/-- The call of `resetpic`, with its return address on the 16-bit stack. -/
theorem resetpicCall_of {now : Cpu} {next : UInt32} (code : now.segment .cs = lowSegment 0)
    (stack : now.segment .ss = lowSegment 0)
    (pointer : now.stackPointer = UInt32.ofNat (stack16 - 2))
    (stored : now.memory.loadLE (stack16 - 2) 2 = next.toNat) : ResetpicCall now next := by
  have number : now.stackPointer.toNat = stack16 - 2 := by
    rw [pointer]
    rfl
  constructor
  case narrow => exact codeWidth_low code
  case stack => exact stackWidth_low stack
  case base =>
    rw [stack]
    rfl
  case limit =>
    rw [stack]
    decide
  case above =>
    rw [number]
    decide
  case below =>
    rw [number]
    decide
  case next => rw [number, stored]

theorem VectorsCalled.call {prepared after : Cpu} (lowered : Lowered image prepared before)
    (called : VectorsCalled image before after) :
    ResetpicCall after (Int32Image.rebase image.vectorsSet) := by
  have small := (Int32Image.rebase image.vectorsSet).toNat_lt
  have label := image.labels_lt.2.2.1
  have fits := image.fits
  have size : image.size = image.code.length + 68 := rfl
  have place := @toNat_rebase image image.vectorsSet (by omega)
  refine resetpicCall_of (called.code.trans lowered.code) called.stack called.stackPointer ?_
  rw [called.memory, Memory.loadLE_storeLE, Nat.mod_eq_of_lt (by omega)]

/-- What the first `resetpic` returns to: the vectors of the BIOS are set, and the registers
of the caller are on top of the stack. -/
structure VectorsSet (image : Int32Image) (cpu : Cpu) (number : UInt8) (regs : UInt32)
    (now : Cpu) : Prop extends RealMode image cpu number regs now where
  ip : now.ip = Int32Image.rebase image.vectorsSet
  idtr : now.idtr = lowInterrupts
  ports : now.ports = cpu.ports ++ resetpicWrites 8 0x70
  stackPointer : now.stackPointer = UInt32.ofNat stack16
  block : ∀ place < regs16Size, now.memory (stack16 + place) = cpu.memory (regs.toNat + place)
  outside : ∀ address, Elsewhere image cpu address → now.memory address = cpu.memory address

theorem VectorsSet.of_reset {prepared called after : Cpu} (call : Int32Call image cpu number regs)
    (made : Prepared image cpu number regs prepared) (lowered : Lowered image prepared before)
    (vectors : VectorsCalled image before called)
    (reset : Reset called (Int32Image.rebase image.vectorsSet) after) :
    VectorsSet image cpu number regs after := by
  have pointer : called.stackPointer.toNat = stack16 - 2 := by
    rw [vectors.stackPointer]
    rfl
  have window : windowLow = stack16 - 6 := rfl
  have low : stack16 = 31718 := rfl
  have top : int32Base = 31744 := rfl
  have memory : ∀ address, address < windowLow ∨ stack16 ≤ address →
      after.memory address = prepared.memory address := by
    intro address away
    rw [reset.memory address (by omega), vectors.memory, Memory.storeLE_outside (by omega),
      lowered.memory]
  constructor
  case toRealMode =>
    constructor
    case code => rw [reset.segment, vectors.code, lowered.code]
    case stack => rw [reset.segment, vectors.stack]
    case cr0 => rw [reset.cr0, vectors.cr0, lowered.cr0, made.cr0]
    case gdtr => rw [reset.gdtr, vectors.gdtr, lowered.gdtr, made.gdtr]
    case underway =>
      exact made.underway.stack call fun address away => memory address (by omega)
  case ip => exact reset.ip
  case idtr => rw [reset.idtr, vectors.idtr]
  case ports =>
    rw [reset.ports, vectors.ports, lowered.ports, made.ports, vectors.vectors.1, vectors.vectors.2]
  case stackPointer =>
    rw [reset.stackPointer, vectors.stackPointer]
    rfl
  case block =>
    intro place within
    rw [memory _ (by omega), made.block place within]
  case outside =>
    intro address elsewhere
    have away := elsewhere.1
    have size : image.size = image.code.length + 68 := rfl
    rw [memory address (by omega), made.outside address elsewhere]

/-- What the BIOS is given: the registers of the caller, with interrupts enabled, the vectors
of the BIOS set, and memory as the caller has left it. -/
structure Given (image : Int32Image) (cpu : Cpu) (number : UInt8) (regs : UInt32)
    (given : Cpu) : Prop extends RealMode image cpu number regs given where
  idtr : given.idtr = lowInterrupts
  ports : given.ports = cpu.ports ++ resetpicWrites 8 0x70
  interrupts : given.flags &&& Flag.interrupt.mask = Flag.interrupt.mask
  stackPointer : given.stackPointer = UInt32.ofNat (stack16 + 24)
  registers : Regs16T.ofCpu given =
    { Regs16T.load cpu.memory regs.toNat with
      sp := UInt16.ofNat (stack16 + 24)
      ef := given.flags.toUInt16 }
  outside : ∀ address, Elsewhere image cpu address → given.memory address = cpu.memory address

/-- A BIOS that returns from the interrupt of this call, given the registers of this call. Of its
other interrupts, and of other registers, nothing is asked. -/
def Returns (firmware : Firmware) (image : Int32Image) (cpu : Cpu) (number : UInt8)
    (regs : UInt32) : Prop :=
  ∀ given, Given image cpu number regs given →
    Returned (Kept image cpu) given (firmware number given)

namespace LowStack

variable {now after : Cpu} {top count : Nat}

theorem add_two : UInt32.ofNat top + 2 = UInt32.ofNat (top + 2) := by
  rw [UInt32.ofNat_add]
  rfl

/-- A segment register from the stack. -/
theorem pop {register : SegmentRegister} (low : LowStack now top)
    (popped : Instruction.SegmentPopped register now after) (data : register ≠ .ss)
    (code : register ≠ .cs) : LowStack after (top + 2) where
  code := (popped.others .cs (Ne.symm code)).trans low.code
  stack := (popped.others .ss (Ne.symm data)).trans low.stack
  real := by
    rw [Cpu.protectedMode, popped.cr0]
    exact low.real
  pointer := by rw [popped.stackPointer, low.pointer, add_two]

/-- What taking segment registers from the stack leaves. -/
structure SegmentsPopped (registers : List SegmentRegister) (top : Nat) (now after : Cpu) : Prop
    extends Instruction.Framed now after where
  low : LowStack after (top + 2 * registers.length)
  loaded : ∀ index register, registers[index]? = some register →
    (after.segment register).selector = now.memory.load16 (top + 2 * index)
  others : ∀ register, register ∉ registers → after.segment register = now.segment register
  register : ∀ register, register ≠ .esp → after.register register = now.register register

/-- A run of pops of segment registers, none of them twice. -/
theorem popSegments_lead {rest : List Instruction} {Post : Cpu → Prop}
    (registers : List SegmentRegister) (distinct : registers.Nodup)
    (data : ∀ register ∈ registers, register ≠ .ss ∧ register ≠ .cs) (low : LowStack now top)
    (inside : top + 2 * registers.length ≤ 0xffff)
    (more : ∀ after, SegmentsPopped registers top now after →
      Leads firmware .word rest after Post) :
    Leads firmware .word (registers.map (.popSegment .word) ++ rest) now Post := by
  induction registers generalizing now top with
  | nil =>
      refine more now ⟨⟨rfl, rfl, rfl, rfl, rfl, rfl⟩, low, fun _ _ found => ?_, fun _ _ => rfl,
        fun _ _ => rfl⟩
      cases found
  | cons register registers inductionHypothesis =>
      rw [List.length_cons] at inside
      obtain ⟨fresh, distinct⟩ := List.nodup_cons.mp distinct
      obtain ⟨here, later⟩ := List.forall_mem_cons.mp data
      obtain ⟨between, ran, popped⟩ := @Instruction.popSegment_real firmware now register
        (low.filled (by omega)) low.real here.1
      refine Leads.cons low.narrow ran ?_
      refine inductionHypothesis distinct later (low.pop popped here.1 here.2) (by omega)
        fun after segments => more after ?_
      constructor
      case toFramed => exact popped.toFramed.trans segments.toFramed
      case low =>
        have length : top + 2 * (register :: registers).length = top + 2 + 2 * registers.length := by
          rw [List.length_cons]
          omega
        rw [length]
        exact segments.low
      case loaded =>
        intro index other found
        cases index with
        | zero =>
            obtain rfl : register = other := Option.some.inj found
            rw [segments.others _ fresh, popped.loaded, low.stackTop (by omega)]
            rfl
        | succ index =>
            have place : top + 2 * (index + 1) = top + 2 + 2 * index := by omega
            rw [segments.loaded index other found, popped.memory, place]
      case others =>
        intro other absent
        rw [segments.others other (fun member => absent (List.mem_cons_of_mem _ member)),
          popped.others other fun same => absent (same ▸ List.mem_cons_self)]
      case register =>
        exact fun other apart =>
          (segments.register other apart).trans (popped.register other apart)

end LowStack

theorem RealMode.real {now : Cpu} (mode : RealMode image cpu number regs now) :
    now.protectedMode = false := by
  rw [Cpu.protectedMode, mode.cr0, UInt32.and_assoc, UInt32.not_and_self, UInt32.and_zero]
  rfl

/-- From the first return of `resetpic` to the interrupt. -/
theorem given_leads {now : Cpu} {rest : List Instruction} {Post : Cpu → Prop}
    (set : VectorsSet image cpu number regs now)
    (more : ∀ given, Given image cpu number regs given → Leads firmware .word rest given Post) :
    Leads firmware .word
      (.popa .word :: .popSegment .word .gs :: .popSegment .word .fs :: .popSegment .word .es ::
        .popSegment .word .ds :: .sti :: rest) now Post := by
  have low : LowStack now stack16 := ⟨set.code, set.stack, set.real, set.stackPointer⟩
  have size : regs16Size = 26 := rfl
  have base : stack16 = 31718 := rfl
  have word : ∀ place, place + 2 ≤ regs16Size →
      now.memory.load16 (stack16 + place) = cpu.memory.load16 (regs.toNat + place) := by
    intro place within
    exact Memory.load16_congr (set.block place (by omega)) (set.block (place + 1) (by omega))
  obtain ⟨first, ran, words⟩ := @Instruction.popa_words firmware now (low.filled (by decide))
  have low' : LowStack first (stack16 + 16) :=
    ⟨by rw [words.segment, set.code], by rw [words.segment, set.stack],
      by rw [Cpu.protectedMode, words.cr0]; exact set.real,
      by rw [words.stackPointer, set.stackPointer]; rfl⟩
  refine Leads.cons low.narrow ran ?_
  refine LowStack.popSegments_lead [.gs, .fs, .es, .ds] (by decide) (by decide) low' (by decide)
    fun second segments => ?_
  refine Leads.cons segments.low.narrow rfl (more _ ?_)
  have memory : second.memory = now.memory := segments.memory.trans words.memory
  constructor
  case toRealMode =>
    constructor
    case code => exact segments.low.code
    case stack => exact segments.low.stack
    case cr0 => exact (segments.cr0.trans words.cr0).trans set.cr0
    case gdtr => exact (segments.gdtr.trans words.gdtr).trans set.gdtr
    case underway =>
      change Underway image cpu number regs second.memory
      rw [memory]
      exact set.underway
  case idtr => exact (segments.idtr.trans words.idtr).trans set.idtr
  case ports => exact (segments.ports.trans words.ports).trans set.ports
  case interrupts => exact withFlag_set
  case stackPointer => exact segments.low.pointer
  case registers =>
    have top := low.stackTop (by decide)
    have general : ∀ {place} register, register ≠ .esp → place + 2 ≤ regs16Size →
        (first.register register).toUInt16 = now.memory.load16 (now.stackTop + place) →
        (second.register register).toUInt16 = cpu.memory.load16 (regs.toNat + place) := by
      intro place register apart within popped
      rw [segments.register register apart, popped, top, word place within]
    have selector : ∀ index register, [SegmentRegister.gs, .fs, .es, .ds][index]? = some register →
        16 + 2 * index + 2 ≤ regs16Size →
        (second.segment register).selector =
          cpu.memory.load16 (regs.toNat + (16 + 2 * index)) := by
      intro index register found within
      rw [segments.loaded index register found, words.memory, Nat.add_assoc, word _ within]
    apply Regs16T.ext
    case di => exact general .edi (by decide) (by decide : 0 + 2 ≤ 26) words.edi
    case si => exact general .esi (by decide) (by decide) words.esi
    case bp => exact general .ebp (by decide) (by decide) words.ebp
    case sp => exact segments.low.toUInt16_esp
    case bx => exact general .ebx (by decide) (by decide) words.ebx
    case dx => exact general .edx (by decide) (by decide) words.edx
    case cx => exact general .ecx (by decide) (by decide) words.ecx
    case ax => exact general .eax (by decide) (by decide) words.eax
    case gs => exact selector 0 .gs rfl (by decide)
    case fs => exact selector 1 .fs rfl (by decide)
    case es => exact selector 2 .es rfl (by decide)
    case ds => exact selector 3 .ds rfl (by decide)
    case ef => rfl
  case outside =>
    intro address elsewhere
    change second.memory address = _
    rw [memory, set.outside address elsewhere]

/-- The interrupt is the one that the caller asks for. -/
theorem int_execute {given : Cpu} (made : Given image cpu number regs given) :
    (Instruction.int ⟨.cs, none, Int32Image.rebase image.ib, .word⟩).execute firmware given =
      some (firmware number given) := by
  have inside := image.ib_lt
  have size : image.size = image.code.length + 68 := rfl
  have found : given.address ⟨.cs, none, Int32Image.rebase image.ib, .word⟩ 1 =
      some (int32Base + image.ib) := by
    change (given.segment .cs).linear (Width.word.take (0 + Int32Image.rebase image.ib)) 1 = _
    rw [made.code]
    exact @linear_rebase image .word _ _ _ rfl (by decide) (by omega) (by decide)
  have byte : (UInt32.ofNat (given.memory.loadLE (int32Base + image.ib) 1)).toUInt8 = number := by
    have bound := number.toNat_lt
    rw [Memory.loadLE, Memory.loadLE, made.underway.number_byte, ← UInt8.toNat_inj,
      UInt32.toNat_toUInt8, UInt32.toNat_ofNat']
    omega
  rw [Instruction.execute_int made.real found, byte]

/-- A BIOS that returns leaves `int32` in real mode. -/
theorem RealMode.answered {given returned : Cpu} (call : Int32Call image cpu number regs)
    (back : Returned (Kept image cpu) given returned) (mode : RealMode image cpu number regs given) :
    RealMode image cpu number regs returned where
  code := back.code.trans mode.code
  stack := back.stack.trans mode.stack
  cr0 := back.mode.trans mode.cr0
  gdtr := back.table.trans mode.gdtr
  underway := mode.underway.keep call.frame_room.1 back.memory

/-- The flags that are stored: the instruction that clears the stack pointer has changed them
since the return of the BIOS. -/
def storedFlags (flags : UInt32) : UInt32 :=
  logicFlags 0 true false (withFlag .interrupt false flags)

/-- What `interruptBlock` leaves: the registers that the BIOS left are on the 16-bit stack, and
`resetpic` is called again. -/
structure Stored (image : Int32Image) (returned after : Cpu) : Prop where
  ip : after.ip = Int32Image.rebase image.resetpic
  code : after.segment .cs = lowSegment 0
  stack : after.segment .ss = lowSegment 0
  cr0 : after.cr0 = returned.cr0
  gdtr : after.gdtr = returned.gdtr
  ports : after.ports = returned.ports
  vectors : after.byte .bh = 0x20 ∧ after.byte .bl = 0x28
  stackPointer : after.stackPointer = UInt32.ofNat (stack16 - 2)
  next : after.memory.loadLE (stack16 - 2) 2 = (Int32Image.rebase image.vectorsRestored).toNat
  block : Regs16T.load after.memory stack16 =
    { Regs16T.ofCpu returned with
      sp := UInt16.ofNat (stack16 + 16)
      ef := (storedFlags returned.flags).toUInt16 }
  outside : ∀ address, address < windowLow ∨ int32Base ≤ address →
    after.memory address = returned.memory address

namespace LowStack

variable {now between after : Cpu} {top middle bottom : Nat} {first second : List UInt32}

/-- What operands that are put on the stack leave. -/
structure Pushed (values : List UInt32) (top bottom : Nat) (before after : Cpu) : Prop where
  low : LowStack after bottom
  memory : after.memory = before.memory.pushWords top 2 values
  segment : after.segment = before.segment
  flags : after.flags = before.flags
  cr0 : after.cr0 = before.cr0
  gdtr : after.gdtr = before.gdtr
  ports : after.ports = before.ports
  register : ∀ register, register ≠ .esp → after.register register = before.register register

theorem pushed (low : LowStack now top) {values : List UInt32} {bottom : Nat}
    (small : top ≤ 0xffff) (above : bottom + 2 * values.length = top) :
    Pushed values top bottom now (now.pushed .word values) := by
  have number := low.toNat_pointer small
  constructor
  case low =>
    refine ⟨low.code, low.stack, low.real, ?_⟩
    rw [Cpu.stackPointer_pushed (by rw [number, Width.bytes]; omega), ← UInt32.toNat_inj,
      Cpu.toNat_sub_ofNat (by rw [number, Width.bytes]; omega), number, UInt32.toNat_ofNat',
      Nat.mod_eq_of_lt (by omega), Width.bytes]
    omega
  case memory =>
    change now.memory.pushWords now.stackTop 2 values = _
    rw [low.stackTop small]
  case segment => rfl
  case flags => rfl
  case cr0 => rfl
  case gdtr => rfl
  case ports => rfl
  case register => exact fun register apart => Function.update_of_ne apart _ _

/-- Operands go on below the ones before. -/
theorem Pushed.trans (pushed : Pushed first top middle now between)
    (more : Pushed second middle bottom between after) (above : middle + 2 * first.length = top) :
    Pushed (first ++ second) top bottom now after where
  low := more.low
  memory := by
    rw [more.memory, pushed.memory, Memory.pushWords_append]
    congr 1
    omega
  segment := more.segment.trans pushed.segment
  flags := more.flags.trans pushed.flags
  cr0 := more.cr0.trans pushed.cr0
  gdtr := more.gdtr.trans pushed.gdtr
  ports := more.ports.trans pushed.ports
  register register apart := (more.register register apart).trans (pushed.register register apart)

/-- One operand on the stack. -/
theorem push (low : LowStack now top) (value : UInt32) (small : top ≤ 0xffff)
    (above : bottom + 2 = top) :
    ∃ after, now.push .word value = some after ∧ Pushed [value] top bottom now after :=
  ⟨_, Cpu.push_eq (low.room small (by rw [Width.bytes]; omega)), low.pushed small above⟩

/-- Operands on the stack, one after the other. -/
theorem pushes (low : LowStack now top) (values : List UInt32) (small : top ≤ 0xffff)
    (above : bottom + 2 * values.length = top) :
    ∃ after, now.pushes .word values = some after ∧ Pushed values top bottom now after :=
  ⟨_, Cpu.pushes_eq (low.room small (by rw [Width.bytes]; omega)), low.pushed small above⟩

/-- The operands that segment registers make. -/
def selectors (cpu : Cpu) (registers : List SegmentRegister) : List UInt32 :=
  registers.map fun register => (cpu.segment register).selector.toUInt32

/-- A run of pushes of segment registers. -/
theorem pushSegments_lead {rest : List Instruction} {Post : Cpu → Prop}
    (registers : List SegmentRegister) (low : LowStack now top) (small : top ≤ 0xffff)
    (above : bottom + 2 * registers.length = top)
    (more : ∀ after, Pushed (selectors now registers) top bottom now after →
      Leads firmware .word rest after Post) :
    Leads firmware .word (registers.map (.pushSegment .word) ++ rest) now Post := by
  induction registers generalizing now top with
  | nil =>
      obtain rfl : bottom = top := above
      exact more now ⟨low, rfl, rfl, rfl, rfl, rfl, rfl, fun _ _ => rfl⟩
  | cons register registers inductionHypothesis =>
      rw [List.length_cons] at above
      obtain ⟨between, ran, pushed⟩ := @push _ _ (top - 2) low
        (now.segment register).selector.toUInt32 small (by omega)
      refine Leads.cons low.narrow ran ?_
      refine inductionHypothesis pushed.low (by omega) (by omega) fun after later => more after ?_
      have same : selectors between registers = selectors now registers := by
        rw [selectors, pushed.segment, selectors]
      rw [same] at later
      exact pushed.trans later (by rw [List.length_singleton]; omega)

end LowStack

/-- What is put on the stack for a `regs16_t`, its last field first; the stack pointer among the
general registers is the one that `pusha` finds. -/
def storedWords (cpu : Cpu) (esp : UInt32) : List UInt32 :=
  [cpu.flags] ++ (LowStack.selectors cpu [.ds, .es, .fs, .gs] ++
    generalRegisters.map (Function.update cpu.register .esp esp))

/-- The registers are put on the stack. -/
theorem registers_lead {now : Cpu} {rest : List Instruction} {Post : Cpu → Prop}
    (low : LowStack now int32Base)
    (more : ∀ esp after, esp.toUInt16 = UInt16.ofNat (stack16 + 16) →
      LowStack.Pushed (storedWords now esp) int32Base stack16 now after →
        Leads firmware .word rest after Post) :
    Leads firmware .word
      (.pushf .word :: ([.ds, .es, .fs, .gs].map (.pushSegment .word) ++ (.pusha .word :: rest)))
      now Post := by
  obtain ⟨first, ran, flags⟩ := low.push now.flags (by decide) (rfl : 31742 + 2 = 31744)
  refine Leads.cons low.narrow ran ?_
  refine LowStack.pushSegments_lead [.ds, .es, .fs, .gs] flags.low (by decide)
    (rfl : 31734 + 2 * 4 = 31742) fun second segments => ?_
  obtain ⟨third, ran', general⟩ := segments.low.pushes (generalRegisters.map second.register)
    (by decide) (rfl : 31718 + 2 * 8 = 31734)
  refine Leads.cons segments.low.narrow ran' 
    (more (second.register .esp) third segments.low.toUInt16_esp ?_)
  · have held : second.register = Function.update now.register .esp (second.register .esp) := by
      refine (Function.update_eq_iff.mpr ⟨rfl, fun register apart => ?_⟩).symm
      exact ((segments.register register apart).trans (flags.register register apart)).symm
    have same : LowStack.selectors first [.ds, .es, .fs, .gs] =
        LowStack.selectors now [.ds, .es, .fs, .gs] := by
      rw [LowStack.selectors, flags.segment, LowStack.selectors]
    rw [same] at segments
    rw [held] at general
    exact flags.trans (segments.trans general rfl) rfl

/-- The block on the stack is the registers. -/
theorem load_storedWords (cpu : Cpu) (esp : UInt32) (memory : Memory) :
    Regs16T.load (memory.pushWords int32Base 2 (storedWords cpu esp)) stack16 =
      { Regs16T.ofCpu cpu with sp := esp.toUInt16, ef := cpu.flags.toUInt16 } := by
  have word : ∀ index value, (storedWords cpu esp)[index]? = some value →
      (memory.pushWords int32Base 2 (storedWords cpu esp)).load16 (int32Base - 2 * (index + 1)) =
        value.toUInt16 := by
    intro index value here
    obtain ⟨stored, same⟩ := List.getElem?_eq_some_iff.mp here
    have length : (storedWords cpu esp).length = 13 := rfl
    have base : int32Base = 31744 := rfl
    rw [Memory.load16_pushWords stored (by omega), same]
  have selector : ∀ index register,
      (storedWords cpu esp)[index]? = some (cpu.segment register).selector.toUInt32 →
        (memory.pushWords int32Base 2 (storedWords cpu esp)).load16
          (int32Base - 2 * (index + 1)) = (cpu.segment register).selector := by
    intro index register here
    rw [word index _ here, UInt16.toUInt16_toUInt32]
  apply Regs16T.ext
  case di => exact word 12 (cpu.register .edi) rfl
  case si => exact word 11 (cpu.register .esi) rfl
  case bp => exact word 10 (cpu.register .ebp) rfl
  case sp => exact word 9 esp rfl
  case bx => exact word 8 (cpu.register .ebx) rfl
  case dx => exact word 7 (cpu.register .edx) rfl
  case cx => exact word 6 (cpu.register .ecx) rfl
  case ax => exact word 5 (cpu.register .eax) rfl
  case gs => exact selector 4 .gs rfl
  case fs => exact selector 3 .fs rfl
  case es => exact selector 2 .es rfl
  case ds => exact selector 1 .ds rfl
  case ef => exact word 0 cpu.flags rfl

/-- The 16-bit stack is empty again; besides, only flags have changed. -/
structure Emptied (returned after : Cpu) : Prop where
  low : LowStack after int32Base
  flags : after.flags = storedFlags returned.flags
  segment : ∀ register, register ≠ .ss → after.segment register = returned.segment register
  register : ∀ register, register ≠ .esp → after.register register = returned.register register
  cr0 : after.cr0 = returned.cr0
  gdtr : after.gdtr = returned.gdtr
  ports : after.ports = returned.ports
  memory : after.memory = returned.memory

theorem emptied_leads {returned : Cpu} {rest : List Instruction} {Post : Cpu → Prop}
    (mode : RealMode image cpu number regs returned)
    (more : ∀ after, Emptied returned after → Leads firmware .word rest after Post) :
    Leads firmware .word
      (.cli :: .xor .word .esp .esp :: .loadSegment .ss .esp ::
        .moveImmediate .word .esp (UInt32.ofNat int32Base) :: rest) returned Post := by
  have narrow := codeWidth_low mode.code
  obtain ⟨cleared, named⟩ : ∃ cleared, ((returned.setFlags (withFlag .interrupt false
      returned.flags)).set .word .esp 0).setFlags (storedFlags returned.flags) = cleared := ⟨_, rfl⟩
  have xor : (Instruction.xor .word .esp .esp).execute firmware
      (returned.setFlags (withFlag .interrupt false returned.flags)) = some cleared := by
    rw [← named]
    exact Instruction.execute_xor_self
  have pointer : (cleared.register .esp).toUInt16 = 0 := by
    rw [← named]
    exact toUInt16_merge_word
  have narrow' : cleared.codeWidth = .word := by rw [← named]; exact narrow
  have real' : cleared.protectedMode = false := by rw [← named]; exact mode.real
  refine Leads.cons narrow rfl ?_
  refine Leads.cons narrow xor ?_
  refine Leads.cons narrow' (Cpu.setSegment_real real') ?_
  refine Leads.cons narrow' rfl (more _ ?_)
  have stack : (cleared.segment .ss).real (cleared.register .esp).toUInt16 = lowSegment 0 := by
    rw [pointer, ← named]
    change (returned.segment .ss).real 0 = _
    rw [mode.stack]
    rfl
  constructor
  case low =>
    constructor
    case code => rw [← named]; exact mode.code
    case stack => exact stack
    case real => exact real'
    case pointer =>
      rw [Cpu.stackPointer, Cpu.stackWidth]
      change (Segment.width ((cleared.segment .ss).real _)).take (Width.word.merge _
        (UInt32.ofNat int32Base)) = _
      rw [stack]
      exact Width.take_merge
  case flags => rw [← named]; rfl
  case segment =>
    intro register apart
    rw [← named]
    exact Function.update_of_ne apart _ _
  case register =>
    intro register apart
    rw [← named]
    exact (Function.update_of_ne apart _ _).trans (Function.update_of_ne apart _ _)
  case cr0 => rw [← named]; rfl
  case gdtr => rw [← named]; rfl
  case ports => rw [← named]; rfl
  case memory => rw [← named]; rfl

/-- From the interrupt to the second call of `resetpic`. -/
theorem stored_leads {returned : Cpu} (mode : RealMode image cpu number regs returned) :
    Leads firmware .word
      [.cli, .xor .word .esp .esp, .loadSegment .ss .esp,
        .moveImmediate .word .esp (UInt32.ofNat int32Base), .pushf .word, .pushSegment .word .ds,
        .pushSegment .word .es, .pushSegment .word .fs, .pushSegment .word .gs, .pusha .word,
        .moveImmediate .word .ebx 0x2028,
        .call .word (Int32Image.rebase image.resetpic) (Int32Image.rebase image.vectorsRestored)]
      returned (Stored image returned) := by
  refine emptied_leads mode fun bottom emptied => ?_
  refine registers_lead emptied.low fun esp pushed stackPointer stored => ?_
  have called := stored.low.room (by decide) (by decide : 2 ≤ stack16)
  refine Leads.cons stored.low.narrow rfl ?_
  refine Leads.cons stored.low.narrow
    (Instruction.execute_call ⟨called.above, called.inside, called.exists'⟩) (Leads.nil ?_)
  have low : LowStack (pushed.set .word .ebx 0x2028) stack16 :=
    ⟨stored.low.code, stored.low.stack, stored.low.real, stored.low.pointer⟩
  have returns : LowStack.Pushed [Int32Image.rebase image.vectorsRestored] stack16 (stack16 - 2)
    _ _ := low.pushed (by decide) rfl
  have memory := returns.memory
  rw [Memory.pushWords, Memory.pushWords] at memory
  have top : stack16 = 31718 := rfl
  have behind : ∀ address, address < stack16 - 2 ∨ stack16 ≤ address →
      (Cpu.pushed .word [Int32Image.rebase image.vectorsRestored]
        (pushed.set .word .ebx 0x2028)).memory address = pushed.memory address := by
    intro address away
    rw [memory, Memory.storeLE_outside (by omega)]
    rfl
  constructor
  case ip => rfl
  case code => exact stored.low.code
  case stack => exact stored.low.stack
  case cr0 => exact stored.cr0.trans emptied.cr0
  case gdtr => exact stored.gdtr.trans emptied.gdtr
  case ports => exact stored.ports.trans emptied.ports
  case vectors =>
    change (ByteRegister.bh.part (Width.word.merge (pushed.register .ebx) 0x2028) = 0x20) ∧
      ByteRegister.bl.part (Width.word.merge (pushed.register .ebx) 0x2028) = 0x28
    rw [ByteRegister.part, ByteRegister.part, toUInt16_merge_word]
    exact ⟨rfl, rfl⟩
  case stackPointer => exact returns.low.pointer
  case next =>
    have small := (Int32Image.rebase image.vectorsRestored).toNat_lt
    have label := image.labels_lt.2.2.2.1
    have fits := image.fits
    have size : image.size = image.code.length + 68 := rfl
    have place := @toNat_rebase image image.vectorsRestored (by omega)
    change (Cpu.pushed .word _ _).memory.loadLE (stack16 - 2) 2 = _
    rw [memory, Memory.loadLE_storeLE, Nat.mod_eq_of_lt (by omega)]
  case block =>
    refine (Regs16T.load_congr fun place _ => behind _ (by omega)).trans ?_
    rw [stored.memory, load_storedWords, stackPointer, emptied.flags]
    apply Regs16T.ext
    case di => exact congrArg UInt32.toUInt16 (emptied.register .edi (by decide))
    case si => exact congrArg UInt32.toUInt16 (emptied.register .esi (by decide))
    case bp => exact congrArg UInt32.toUInt16 (emptied.register .ebp (by decide))
    case sp => rfl
    case bx => exact congrArg UInt32.toUInt16 (emptied.register .ebx (by decide))
    case dx => exact congrArg UInt32.toUInt16 (emptied.register .edx (by decide))
    case cx => exact congrArg UInt32.toUInt16 (emptied.register .ecx (by decide))
    case ax => exact congrArg UInt32.toUInt16 (emptied.register .eax (by decide))
    case gs => exact congrArg Segment.selector (emptied.segment .gs (by decide))
    case fs => exact congrArg Segment.selector (emptied.segment .fs (by decide))
    case es => exact congrArg Segment.selector (emptied.segment .es (by decide))
    case ds => exact congrArg Segment.selector (emptied.segment .ds (by decide))
    case ef => rfl
  case outside =>
    intro address away
    have window : windowLow = 31712 := rfl
    have base : int32Base = 31744 := rfl
    have length : (storedWords bottom esp).length = 13 := rfl
    change (Cpu.pushed .word _ _).memory address = _
    rw [behind _ (by omega), stored.memory, Memory.pushWords_outside (by omega) (by omega),
      emptied.memory]

end Bootloader.Arch
