import Bootloader.Std.Segment

/-!
# An i386 processor

As much of the processor as the code at the border of real and protected mode uses: the
registers, the segments with what is hidden behind them, the flags, the mode, memory and
the bytes written to ports. An instruction that would fault, or whose bytes would mean
something else in the code segment it is run from, has no next state.
-/

namespace Bootloader.Std

/-- The general registers. -/
inductive Register where
  | eax
  | ecx
  | edx
  | ebx
  | esp
  | ebp
  | esi
  | edi
deriving DecidableEq, Repr

/-- The registers of eight bits in use: each is a part of a general one. -/
inductive ByteRegister where
  | al
  | ah
  | bl
  | bh
  | dl
  | dh
deriving DecidableEq, Repr

namespace ByteRegister

/-- The general register that this one is a part of. -/
def register : ByteRegister → Register
  | .al | .ah => .eax
  | .bl | .bh => .ebx
  | .dl | .dh => .edx

/-- The part of the general register. -/
def part (value : UInt32) : ByteRegister → UInt8
  | .ah | .bh | .dh => (value.toUInt16 >>> 8).toUInt8
  | .al | .bl | .dl => value.toUInt16.toUInt8

/-- The general register after its part has been changed. -/
def merge (old : UInt32) (new : UInt8) : ByteRegister → UInt32
  | .ah | .bh | .dh => (new.toUInt32 <<< 8) ||| (old &&& 0xffff00ff)
  | .al | .bl | .dl => (old &&& 0xffffff00) ||| new.toUInt32

end ByteRegister

/-- The bits of the flags register. -/
inductive Flag where
  | carry
  | parity
  | adjust
  | zero
  | sign
  | interrupt
  | direction
  | overflow
deriving DecidableEq, Repr

/-- The place of a flag. -/
def Flag.mask : Flag → UInt32
  | .carry => 0x001
  | .parity => 0x004
  | .adjust => 0x010
  | .zero => 0x040
  | .sign => 0x080
  | .interrupt => 0x200
  | .direction => 0x400
  | .overflow => 0x800

/-- Set or clear a flag. -/
def withFlag (flag : Flag) (value : Bool) (flags : UInt32) : UInt32 :=
  if value then flags ||| flag.mask else flags &&& ~~~flag.mask

/-- Whether a byte has an even number of bits set. -/
def evenParity (byte : UInt8) : Bool :=
  (List.range 8).foldl (fun even place => even ^^ byte.toNat.testBit place) true

/-- The flags that say what a result is like. -/
def resultFlags (low : UInt8) (zero sign : Bool) (flags : UInt32) : UInt32 :=
  withFlag .parity (evenParity low) (withFlag .zero zero (withFlag .sign sign flags))

/-- The flags after a logical operation. The adjust flag, which the operation leaves
undefined, stays. -/
def logicFlags (low : UInt8) (zero sign : Bool) (flags : UInt32) : UInt32 :=
  withFlag .carry false (withFlag .overflow false (resultFlags low zero sign flags))

/-- Whether a word has its highest bit set. -/
def Width.negative (value : UInt32) (width : Width) : Bool :=
  value.toNat.testBit (8 * width.bytes - 1)

/-- The flags after an addition of two operands. -/
def addFlags (width : Width) (first second : UInt32) (flags : UInt32) : UInt32 :=
  let result := width.take (first + second)
  withFlag .carry (result.toNat != first.toNat + second.toNat)
    (withFlag .overflow ((width.negative first == width.negative second) &&
        (width.negative result != width.negative first))
      (withFlag .adjust (first.toNat % 16 + second.toNat % 16 > 15)
        (resultFlags result.toUInt8 (result == 0) (width.negative result) flags)))

/-- The flags after a byte has been subtracted from another one. -/
def compareFlags (first second : UInt8) (flags : UInt32) : UInt32 :=
  let result := first - second
  withFlag .carry (first < second)
    (withFlag .overflow ((first.toNat.testBit 7 != second.toNat.testBit 7) &&
        (result.toNat.testBit 7 != first.toNat.testBit 7))
      (withFlag .adjust (first.toNat % 16 < second.toNat % 16)
        (resultFlags result (result == 0) (result.toNat.testBit 7) flags)))

/-- The flags after a shift to the left. The overflow flag and the adjust flag, which it leaves
undefined unless it is by one place, stay. -/
def shiftFlags (width : Width) (old result : UInt32) (count : Nat) (flags : UInt32) : UInt32 :=
  withFlag .carry (old.toNat.testBit (8 * width.bytes - count))
    (resultFlags result.toUInt8 (result == 0) (width.negative result) flags)

/-- The processor with the memory and the ports it is connected to. `ip` is where the last
jump, call or return went. -/
structure Cpu where
  register : Register → UInt32
  segment : SegmentRegister → Segment
  flags : UInt32
  cr0 : UInt32
  gdtr : TableRegister
  idtr : TableRegister
  ip : UInt32
  memory : Memory
  ports : List (UInt8 × UInt8)

/-- What a software interrupt does in real mode, from the interrupt instruction to the
return behind it. -/
abbrev Firmware : Type := UInt8 → Cpu → Cpu

/-- An operand in memory. -/
structure Place where
  segment : SegmentRegister
  base : Option Register
  displacement : UInt32
  width : Width
deriving DecidableEq, Repr

namespace Cpu

/-- Whether the processor is in protected mode. -/
def protectedMode (cpu : Cpu) : Bool := cpu.cr0 &&& 1 != 0

/-- The size that operands and addresses have by default. -/
def codeWidth (cpu : Cpu) : Width := (cpu.segment .cs).width

/-- The size of the stack pointer. -/
def stackWidth (cpu : Cpu) : Width := (cpu.segment .ss).width

/-- The offset of the top of the stack. -/
def stackPointer (cpu : Cpu) : UInt32 :=
  cpu.stackWidth.take (cpu.register .esp)

/-- Change memory. -/
def setMemory (memory : Memory) (cpu : Cpu) : Cpu := { cpu with memory }

/-- Change the flags. -/
def setFlags (flags : UInt32) (cpu : Cpu) : Cpu := { cpu with flags }

/-- Change the control register. -/
def setCr0 (cr0 : UInt32) (cpu : Cpu) : Cpu := { cpu with cr0 }

/-- Change where the table of segments is. -/
def setGdtr (gdtr : TableRegister) (cpu : Cpu) : Cpu := { cpu with gdtr }

/-- Change where the table of interrupts is. -/
def setIdtr (idtr : TableRegister) (cpu : Cpu) : Cpu := { cpu with idtr }

/-- Go somewhere. -/
def setIp (ip : UInt32) (cpu : Cpu) : Cpu := { cpu with ip }

/-- Write a byte to a port. -/
def output (port value : UInt8) (cpu : Cpu) : Cpu :=
  { cpu with ports := cpu.ports ++ [(port, value)] }

/-- Change what a segment register holds. -/
def holdSegment (target : SegmentRegister) (loaded : Segment) (cpu : Cpu) : Cpu :=
  { cpu with segment := Function.update cpu.segment target loaded }

/-- Change the general registers. -/
def setRegisters (register : Register → UInt32) (cpu : Cpu) : Cpu := { cpu with register }

/-- Change a register. -/
def setRegister (target : Register) (value : UInt32) (cpu : Cpu) : Cpu :=
  cpu.setRegisters (Function.update cpu.register target value)

/-- Change an operand in a register. -/
def set (width : Width) (target : Register) (value : UInt32) (cpu : Cpu) :
    Cpu :=
  cpu.setRegister target (width.merge (cpu.register target) value)

/-- Move the top of the stack. -/
def setStackPointer (value : UInt32) (cpu : Cpu) : Cpu :=
  cpu.set cpu.stackWidth .esp value

/-- The operand in a register of eight bits. -/
def byte (cpu : Cpu) (source : ByteRegister) : UInt8 :=
  source.part (cpu.register source.register)

/-- Change a register of eight bits. -/
def setByte (target : ByteRegister) (value : UInt8) (cpu : Cpu) : Cpu :=
  cpu.setRegister target.register
    (target.merge (cpu.register target.register) value)

/-- The offset of an operand in memory. -/
def offset (place : Place) (cpu : Cpu) : UInt32 :=
  place.width.take ((place.base.elim 0 cpu.register) + place.displacement)

/-- The address of some bytes at a place. -/
def address (place : Place) (count : Nat) (cpu : Cpu) : Option Nat :=
  (cpu.segment place.segment).linear (cpu.offset place) count

/-- The operand of some bytes at a place. -/
def read (place : Place) (count : Nat) (cpu : Cpu) : Option UInt32 :=
  (cpu.address place count).map fun address =>
    UInt32.ofNat (cpu.memory.loadLE address count)

/-- Change the bytes at a place. -/
def write (place : Place) (count : Nat) (value : Nat) (cpu : Cpu) :
    Option Cpu :=
  (cpu.address place count).map fun address =>
    cpu.setMemory (cpu.memory.storeLE address count value)

/-- Load a segment register. -/
def setSegment (target : SegmentRegister) (selector : UInt16) (cpu : Cpu) :
    Option Cpu :=
  if cpu.protectedMode then
    (Segment.select cpu.memory cpu.gdtr target selector).map fun loaded =>
      cpu.holdSegment target loaded
  else some (cpu.holdSegment target ((cpu.segment target).real selector))

/-- Put an operand on the stack. -/
def push (width : Width) (value : UInt32) (cpu : Cpu) : Option Cpu :=
  let top := cpu.stackWidth.take (cpu.stackPointer - UInt32.ofNat width.bytes)
  ((cpu.segment .ss).linear top width.bytes).map fun address =>
    (cpu.setStackPointer top).setMemory (cpu.memory.storeLE address width.bytes value.toNat)

/-- Take an operand from the stack. -/
def pop (width : Width) (cpu : Cpu) : Option (UInt32 × Cpu) :=
  let top := cpu.stackPointer
  ((cpu.segment .ss).linear top width.bytes).map fun address =>
    (UInt32.ofNat (cpu.memory.loadLE address width.bytes),
      cpu.setStackPointer (top + UInt32.ofNat width.bytes))

/-- Put operands on the stack, one after the other. -/
def pushes (width : Width) : List UInt32 → Cpu → Option Cpu
  | [], cpu => some cpu
  | value :: rest, cpu => cpu.push width value >>= pushes width rest

/-- Change an operand in a register that is not the stack pointer. -/
def receive (width : Width) (target : Register) (value : UInt32) (cpu : Cpu) : Cpu :=
  if target = .esp then cpu else cpu.set width target value

/-- Take operands from the stack into registers; one for the stack pointer is dropped. -/
def pops (width : Width) : List Register → Cpu → Option Cpu
  | [], cpu => some cpu
  | target :: rest, cpu =>
      cpu.pop width >>= fun (value, popped) => pops width rest (popped.receive width target value)

end Cpu

/-- The general registers in the order in which they are put on the stack together. -/
def generalRegisters : List Register :=
  [.eax, .ecx, .edx, .ebx, .esp, .ebp, .esi, .edi]

/-- The instructions. Only a halt with interrupts off is followed, which is for good. -/
inductive Instruction where
  | cli
  | sti
  | cld
  | load (width : Width) (target : Register) (source : Place)
  | store (width : Width) (target : Place) (source : Register)
  | storeByte (target : Place) (source : ByteRegister)
  | move (width : Width) (target source : Register)
  | moveImmediate (width : Width) (target : Register) (value : UInt32)
  | moveByte (target source : ByteRegister)
  | moveByteImmediate (target : ByteRegister) (value : UInt8)
  | lea (width : Width) (target : Register) (source : Place)
  | loadSegment (target : SegmentRegister) (source : Register)
  | storeSegment (target : Register) (source : SegmentRegister)
  | loadControl (target : Register)
  | storeControl (source : Register)
  | xor (width : Width) (target source : Register)
  | andByte (target : ByteRegister) (value : UInt8)
  | inc (width : Width) (target : Register)
  | shrByte (target : ByteRegister)
  | lodsd
  | repMovsb
  | push (width : Width) (source : Register)
  | pop (width : Width) (target : Register)
  | pushSegment (width : Width) (source : SegmentRegister)
  | popSegment (width : Width) (target : SegmentRegister)
  | pusha (width : Width)
  | popa (width : Width)
  | pushf (width : Width)
  | lgdt (width : Width) (source : Place)
  | lidt (width : Width) (source : Place)
  | sgdt (target : Place)
  | sidt (target : Place)
  | out (port : UInt8)
  | jump (target : UInt32)
  | jumpFar (width : Width) (selector : UInt16) (target : UInt32)
  | call (width : Width) (target next : UInt32)
  | ret (width : Width)
  | iret (width : Width)
  | int (number : Place)
  | intImmediate (number : UInt8)
  | storeImmediate (width : Width) (target : Place) (value : UInt32)
  | add (width : Width) (target source : Register)
  | orImmediate (width : Width) (target : Register) (value : UInt32)
  | shlImmediate (width : Width) (target : Register) (count : Nat)
  | compareByte (target : ByteRegister) (value : UInt8)
  | lodsb
  | jumpIf (flag : Flag) (target next : UInt32)
  | hlt (here : UInt32)
deriving DecidableEq, Repr

namespace Instruction

/-- What the bytes of an instruction mean in a segment whose code is of the other size than
the one they were assembled for. Only instructions that are as long as before are
followed. -/
def reread : Instruction → Option Instruction
  | .cli => some .cli
  | .sti => some .sti
  | .cld => some .cld
  | .move width target source => some (.move width.other target source)
  | .moveByte target source => some (.moveByte target source)
  | .moveByteImmediate target value => some (.moveByteImmediate target value)
  | .loadSegment target source => some (.loadSegment target source)
  | .xor width target source => some (.xor width.other target source)
  | .andByte target value => some (.andByte target value)
  | .inc width target => some (.inc width.other target)
  | .shrByte target => some (.shrByte target)
  | .push width source => some (.push width.other source)
  | .pop width target => some (.pop width.other target)
  | .pushSegment width source => some (.pushSegment width.other source)
  | .popSegment width target => some (.popSegment width.other target)
  | .pusha width => some (.pusha width.other)
  | .popa width => some (.popa width.other)
  | .pushf width => some (.pushf width.other)
  | .out port => some (.out port)
  | .ret width => some (.ret width.other)
  | .iret width => some (.iret width.other)
  | _ => none

/-- Load a table register; an operand of sixteen bits has a base of 24 bits. -/
def tableRegister (width : Width) (source : Place) (cpu : Cpu) :
    Option TableRegister :=
  (cpu.address source 6).map fun address =>
    { limit := UInt16.ofNat (cpu.memory.loadLE address 2)
      base := UInt32.ofNat
        (cpu.memory.loadLE (address + 2) (if width = .word then 3 else 4)) }

/-- The bytes of a table register in memory. -/
def storeTable (target : Place) (table : TableRegister) (cpu : Cpu) :
    Option Cpu :=
  (cpu.address target 6).map fun address =>
    cpu.setMemory ((cpu.memory.storeLE address 2 table.limit.toNat).storeLE (address + 2) 4
      table.base.toNat)

/-- Copy ECX bytes upwards. The copy downwards is not followed. -/
def copyBytes (cpu : Cpu) : Option Cpu :=
  let count := cpu.register .ecx
  if cpu.flags &&& Flag.direction.mask = 0 then
    (cpu.segment .ds).linear (cpu.register .esi) count.toNat >>= fun source =>
      ((cpu.segment .es).linear (cpu.register .edi) count.toNat).map fun target =>
        (((cpu.setRegister .esi (cpu.register .esi + count)).setRegister
          .edi (cpu.register .edi + count)).setRegister .ecx 0).setMemory
            (cpu.memory.copyUp target source count.toNat)
  else none

/-- Load a double word from DS:ESI and step over it. -/
def loadString (cpu : Cpu) : Option Cpu :=
  if cpu.flags &&& Flag.direction.mask = 0 then
    ((cpu.segment .ds).linear (cpu.register .esi) 4).map fun source =>
      (cpu.setRegister .eax (UInt32.ofNat (cpu.memory.loadLE source 4))).setRegister
        .esi (cpu.register .esi + 4)
  else none

/-- Load a byte from DS:SI or DS:ESI, as the code has it, and step over it. -/
def loadByte (cpu : Cpu) : Option Cpu :=
  let index := cpu.codeWidth.take (cpu.register .esi)
  if cpu.flags &&& Flag.direction.mask = 0 then
    ((cpu.segment .ds).linear index 1).map fun source =>
      (cpu.setByte .al (cpu.memory source)).set cpu.codeWidth .esi (index + 1)
  else none

/-- The effect of an instruction. -/
def execute (firmware : Firmware) (cpu : Cpu) : Instruction → Option Cpu
  | .cli => some (cpu.setFlags (withFlag .interrupt false cpu.flags))
  | .sti => some (cpu.setFlags (withFlag .interrupt true cpu.flags))
  | .cld => some (cpu.setFlags (withFlag .direction false cpu.flags))
  | .load width target source =>
      (cpu.read source width.bytes).map fun value => cpu.set width target value
  | .store width target source =>
      cpu.write target width.bytes (cpu.register source).toNat
  | .storeByte target source => cpu.write target 1 (cpu.byte source).toNat
  | .move width target source => some (cpu.set width target (cpu.register source))
  | .moveImmediate width target value => some (cpu.set width target value)
  | .moveByte target source => some (cpu.setByte target (cpu.byte source))
  | .moveByteImmediate target value => some (cpu.setByte target value)
  | .lea width target source => some (cpu.set width target (cpu.offset source))
  | .loadSegment target source =>
      cpu.setSegment target (cpu.register source).toUInt16
  | .storeSegment target source =>
      some (cpu.set .word target (cpu.segment source).selector.toUInt32)
  | .loadControl target => some (cpu.setRegister target cpu.cr0)
  | .storeControl source => some (cpu.setCr0 (cpu.register source))
  | .xor width target source =>
      let result := width.take (cpu.register target ^^^ cpu.register source)
      some ((cpu.set width target result).setFlags
        (logicFlags result.toUInt8 (result == 0) (result.toNat.testBit (8 * width.bytes - 1))
          cpu.flags))
  | .andByte target value =>
      let result := cpu.byte target &&& value
      some ((cpu.setByte target result).setFlags
        (logicFlags result (result == 0) (result.toNat.testBit 7) cpu.flags))
  | .inc width target =>
      let result := width.take (cpu.register target + 1)
      some ((cpu.set width target result).setFlags
        (withFlag .adjust (result &&& 0x0f == 0)
          (withFlag .overflow (result.toNat == 2 ^ (8 * width.bytes - 1))
            (resultFlags result.toUInt8 (result == 0)
              (result.toNat.testBit (8 * width.bytes - 1)) cpu.flags))))
  | .shrByte target =>
      let old := cpu.byte target
      let result := old >>> 1
      some ((cpu.setByte target result).setFlags
        (withFlag .carry (old.toNat.testBit 0) (withFlag .overflow (old.toNat.testBit 7)
          (resultFlags result (result == 0) false cpu.flags))))
  | .lodsd => loadString cpu
  | .repMovsb => copyBytes cpu
  | .push width source => cpu.push width (cpu.register source)
  | .pop width target =>
      (cpu.pop width).map fun (value, popped) => popped.set width target value
  | .pushSegment width source =>
      cpu.push width (cpu.segment source).selector.toUInt32
  | .popSegment width target =>
      cpu.pop width >>= fun (value, popped) => popped.setSegment target value.toUInt16
  | .pusha width => cpu.pushes width (generalRegisters.map cpu.register)
  | .popa width => cpu.pops width generalRegisters.reverse
  | .pushf width => cpu.push width cpu.flags
  | .lgdt width source => (tableRegister width source cpu).map fun table => cpu.setGdtr table
  | .lidt width source => (tableRegister width source cpu).map fun table => cpu.setIdtr table
  | .sgdt target => storeTable target cpu.gdtr cpu
  | .sidt target => storeTable target cpu.idtr cpu
  | .out port => some (cpu.output port (cpu.byte .al))
  | .jump target => some (cpu.setIp target)
  | .jumpFar width selector target =>
      (cpu.setSegment .cs selector).map fun jumped => jumped.setIp (width.take target)
  | .call width target next => (cpu.push width next).map fun called => called.setIp target
  | .ret width => (cpu.pop width).map fun (value, returned) => returned.setIp value
  | .iret width =>
      cpu.pop width >>= fun (ip, first) =>
        first.pop width >>= fun (selector, second) =>
          second.pop width >>= fun (flags, third) =>
            (third.setSegment .cs selector.toUInt16).map fun returned =>
              (returned.setIp ip).setFlags (width.merge third.flags flags)
  | .int number =>
      if cpu.protectedMode then none
      else (cpu.read number 1).map fun vector => firmware vector.toUInt8 cpu
  | .intImmediate number => if cpu.protectedMode then none else some (firmware number cpu)
  | .storeImmediate width target value => cpu.write target width.bytes value.toNat
  | .add width target source =>
      let first := width.take (cpu.register target)
      let second := width.take (cpu.register source)
      some ((cpu.set width target (first + second)).setFlags
        (addFlags width first second cpu.flags))
  | .orImmediate width target value =>
      let result := width.take (cpu.register target ||| value)
      some ((cpu.set width target result).setFlags
        (logicFlags result.toUInt8 (result == 0) (width.negative result) cpu.flags))
  | .shlImmediate width target count =>
      let old := width.take (cpu.register target)
      let result := width.take (old <<< UInt32.ofNat count)
      some ((cpu.set width target result).setFlags (shiftFlags width old result count cpu.flags))
  | .compareByte target value =>
      some (cpu.setFlags (compareFlags (cpu.byte target) value cpu.flags))
  | .lodsb => loadByte cpu
  | .jumpIf flag target next =>
      some (cpu.setIp (if cpu.flags &&& flag.mask = 0 then next else target))
  | .hlt here =>
      if cpu.flags &&& Flag.interrupt.mask = 0 then some (cpu.setIp here) else none

/-- One instruction, assembled for code of some size. -/
def step (firmware : Firmware) (assembled : Width) (instruction : Instruction)
    (cpu : Cpu) : Option Cpu :=
  if cpu.codeWidth = assembled then instruction.execute firmware cpu
  else instruction.reread >>= execute firmware cpu

end Instruction

/-- Instructions that stand one behind the other: where the first one is, the size they were
assembled for, and whether memory still holds their bytes. -/
structure CodeBlock where
  start : UInt32
  assembled : Width
  intact : Memory → Bool
  instructions : List Instruction

namespace CodeBlock

/-- Run instructions one after the other. -/
def steps (firmware : Firmware) (assembled : Width) :
    List Instruction → Cpu → Option Cpu
  | [], cpu => some cpu
  | instruction :: rest, cpu =>
      instruction.step firmware assembled cpu >>= steps firmware assembled rest

/-- Run a block that the last jump, call or return has led to. -/
def run (firmware : Firmware) (block : CodeBlock) (cpu : Cpu) : Option Cpu :=
  if cpu.ip = block.start ∧ block.intact cpu.memory then
    steps firmware block.assembled block.instructions cpu
  else none

/-- Run blocks that lead one to the other. -/
def runs (firmware : Firmware) : List CodeBlock → Cpu → Option Cpu
  | [], cpu => some cpu
  | block :: rest, cpu => block.run firmware cpu >>= runs firmware rest

end CodeBlock

end Bootloader.Std
